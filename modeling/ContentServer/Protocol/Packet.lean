import ContentServer.Foundation.LittleEndian

/-!
# Packets

The wire format of `Protocol.h`: a packed header of two 16-bit fields followed
by a message field of 256 bytes, of which only the first `size - 4` are sent.
-/

namespace ContentServer
namespace Protocol

open Foundation

abbrev HEADER_SIZE : Nat := 4

/-- `sizeof(Packet::message)`. -/
abbrev MESSAGE_SIZE : Nat := 256

/-- `sizeof(Packet)`. -/
abbrev PACKET_SIZE : Nat := 260

theorem sizes_eq :
    HEADER_SIZE = 4 ∧ MESSAGE_SIZE = 256 ∧ PACKET_SIZE = 260 :=
  ⟨rfl, rfl, rfl⟩

/-- The bytes of a text, one for each ASCII character. -/
def text (s : String) : List UInt8 :=
  s.toList.map fun c => c.val.toUInt8

structure PacketHeader where
  size : UInt16
  id : UInt16
deriving DecidableEq

structure Packet where
  header : PacketHeader
  message : List UInt8
  length_message : message.length = MESSAGE_SIZE
deriving DecidableEq

/-- The header field as it lies in memory. -/
def PacketHeader.toBytes (h : PacketHeader) : List UInt8 :=
  encode16 h.size ++ encode16 h.id

/-- The header that the first four bytes spell. -/
def PacketHeader.ofBytes (b : List UInt8) : PacketHeader where
  size := decode16 (b.getD 0 0) (b.getD 1 0)
  id := decode16 (b.getD 2 0) (b.getD 3 0)

/-- The packed structure as it lies in memory. -/
def Packet.toBytes (p : Packet) : List UInt8 :=
  p.header.toBytes ++ p.message

/-- The structure that `sizeof(Packet)` bytes spell. -/
def Packet.ofBytes (b : List UInt8) : Packet where
  header := PacketHeader.ofBytes b
  message := (b.drop HEADER_SIZE).takeD MESSAGE_SIZE 0
  length_message := List.takeD_length MESSAGE_SIZE _ 0

/-- The message bytes that the header announces. -/
def Packet.body (p : Packet) : List UInt8 :=
  p.message.take (p.header.size.toNat - HEADER_SIZE)

/-- The bytes that a send of `header.size` bytes puts on the wire. -/
def Packet.wire (p : Packet) : List UInt8 :=
  p.toBytes.take p.header.size.toNat

/-- `MakePacket(id, msg)`; the rest of the message field is zero. -/
def makePacket (id : UInt16) (msg : List UInt8) : Packet :=
  let copyLen := min msg.length MESSAGE_SIZE
  { header := { size := UInt16.ofNat (HEADER_SIZE + copyLen), id := id }
    message := msg.take copyLen ++ List.replicate (MESSAGE_SIZE - copyLen) 0
    length_message := by
      simp only [List.length_append, List.length_take, List.length_replicate,
        copyLen]
      omega }

theorem size_makePacket (id : UInt16) (msg : List UInt8) :
    (makePacket id msg).header.size.toNat =
      HEADER_SIZE + min msg.length MESSAGE_SIZE := by
  have hsizes := sizes_eq
  show (UInt16.ofNat (HEADER_SIZE + min msg.length MESSAGE_SIZE)).toNat = _
  rw [UInt16.toNat_ofNat', Nat.mod_eq_of_lt (by omega)]

/-- The announced part of a made packet is the text, cut to the field. -/
theorem body_makePacket (id : UInt16) (msg : List UInt8) :
    (makePacket id msg).body = msg.take MESSAGE_SIZE := by
  have hlen : (makePacket id msg).header.size.toNat - HEADER_SIZE =
      min msg.length MESSAGE_SIZE := by
    rw [size_makePacket, Nat.add_sub_cancel_left]
  unfold Packet.body
  rw [hlen]
  show (msg.take _ ++ List.replicate _ 0).take _ = _
  rw [List.take_append_of_le_length (by rw [List.length_take]; omega),
    List.take_take, Nat.min_self]
  by_cases h : msg.length ≤ MESSAGE_SIZE
  · rw [Nat.min_eq_left h, List.take_length, List.take_of_length_le h]
  · rw [Nat.min_eq_right (by omega)]

inductive MsgType where
  | client
  | tradeRequest
  | tradeAccept
  | tradeReject
  | tradeCancel
  | tradeDisconnect
deriving DecidableEq

structure ShardMsg where
  type : MsgType := .client
  sessionId : Nat := 0
  fromSid : Nat := 0
  pkt : Packet
deriving DecidableEq

/-!
# Memory layout
-/

@[simp] theorem length_toBytes_header (h : PacketHeader) :
    h.toBytes.length = HEADER_SIZE := rfl

@[simp] theorem length_toBytes (p : Packet) : p.toBytes.length = PACKET_SIZE := by
  rw [Packet.toBytes, List.length_append, length_toBytes_header,
    p.length_message, sizes_eq.left, sizes_eq.right.left, sizes_eq.right.right]

theorem ofBytes_toBytes_header (h : PacketHeader) (tail : List UInt8) :
    PacketHeader.ofBytes (h.toBytes ++ tail) = h := by
  cases h with
  | mk size id =>
      simp [PacketHeader.ofBytes, PacketHeader.toBytes, encode16,
        decode16_encode16]

/-- Only the first four bytes matter for the header. -/
theorem ofBytes_header_append {b : List UInt8} (c : List UInt8)
    (h : HEADER_SIZE ≤ b.length) :
    PacketHeader.ofBytes (b ++ c) = PacketHeader.ofBytes b := by
  have hsizes := sizes_eq
  simp only [PacketHeader.ofBytes]
  rw [List.getD_append _ _ _ _ (by omega), List.getD_append _ _ _ _ (by omega),
    List.getD_append _ _ _ _ (by omega), List.getD_append _ _ _ _ (by omega)]

theorem ofBytes_header_take (b : List UInt8) {len : Nat}
    (hlen : HEADER_SIZE ≤ len) (hb : len ≤ b.length) :
    PacketHeader.ofBytes (b.take len) = PacketHeader.ofBytes b := by
  have htake : HEADER_SIZE ≤ (b.take len).length := by
    rw [List.length_take]
    omega
  conv_rhs => rw [← List.take_append_drop len b]
  exact (ofBytes_header_append _ htake).symm

/-- The first message bytes of a packet read from memory. -/
theorem take_message_ofBytes {b : List UInt8} {k : Nat}
    (hk : k ≤ MESSAGE_SIZE) (hb : PACKET_SIZE ≤ b.length) :
    (Packet.ofBytes b).message.take k = (b.drop HEADER_SIZE).take k := by
  have hdrop : MESSAGE_SIZE ≤ (b.drop HEADER_SIZE).length := by
    have hsizes := sizes_eq
    rw [List.length_drop]
    omega
  show ((b.drop HEADER_SIZE).takeD MESSAGE_SIZE 0).take k = _
  rw [List.takeD_eq_take _ hdrop, List.take_take, Nat.min_eq_left hk]

/-- A send puts the header and the announced part on the wire. -/
theorem wire_makePacket (id : UInt16) (msg : List UInt8) :
    (makePacket id msg).wire =
      (makePacket id msg).header.toBytes ++ msg.take MESSAGE_SIZE := by
  rw [← body_makePacket id msg]
  unfold Packet.wire Packet.body Packet.toBytes
  rw [size_makePacket, List.take_append, length_toBytes_header,
    List.take_of_length_le (by rw [length_toBytes_header]; omega)]

/-- The text of a made packet can be read off the wire. -/
theorem wire_makePacket_inj {id id' : UInt16} {msg msg' : List UInt8}
    (h : (makePacket id msg).wire = (makePacket id' msg').wire) :
    msg.take MESSAGE_SIZE = msg'.take MESSAGE_SIZE := by
  rw [wire_makePacket, wire_makePacket] at h
  exact (List.append_inj h rfl).right

end Protocol
end ContentServer
