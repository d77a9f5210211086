import ContentServer.Foundation.Codec
import ContentServer.Protocol.PacketStream

/-!
# The packet stream is canonical

The greedy parse of a byte stream is the only way to read it: no bytes are lost,
no packet is made up, and a different list of packets needs different bytes.
-/

namespace ContentServer
namespace Protocol

open Foundation

theorem encode16_decode16 (lo hi : UInt8) : encode16 (decode16 lo hi) = [lo, hi] := by
  have hlo : lo.toNat < 256 := lo.toNat_lt
  have hhi : hi.toNat < 256 := hi.toNat_lt
  have hlow : UInt8.ofNat ((lo.toNat + 256 * hi.toNat) % 256) = lo := by
    apply UInt8.toNat_inj.mp
    rw [UInt8.toNat_ofNat']
    omega
  have hhigh : UInt8.ofNat ((lo.toNat + 256 * hi.toNat) / 256) = hi := by
    apply UInt8.toNat_inj.mp
    rw [UInt8.toNat_ofNat']
    omega
  unfold encode16
  rw [toNat_decode16, hlow, hhigh]

/-- A size that was read off two bytes is written as these two bytes. -/
theorem encode16_ofNat_size (lo hi : UInt8) :
    encode16 (UInt16.ofNat (lo.toNat + 256 * hi.toNat)) = [lo, hi] :=
  encode16_decode16 lo hi

/-- A frame that was cut off a stream is legal and spells the bytes cut. -/
theorem encode_of_nextFrame {b : List UInt8} {size : Nat} {f : Frame}
    (h : nextFrame b = .frame size f) : f.Legal ∧ f.encode = b.take size := by
  have hbounds := nextFrame_eq_frame h
  have hsizes := sizes_eq
  have hlegal : f.Legal := by
    unfold Frame.Legal
    have hsize := hbounds.right.right.right
    unfold Frame.size at hsize
    omega
  refine ⟨hlegal, ?_⟩
  rcases exists_header_of_ne_more (b := b) (by rw [h]; intro hc; cases hc) with
    ⟨lo, hi, idLo, idHi, tail, rfl⟩
  rw [nextFrame_cons] at h
  split_ifs at h with hbad hmore
  injection h with hsize hframe
  have hfour : lo.toNat + 256 * hi.toNat = (lo.toNat + 256 * hi.toNat - 4) + 4 := by
    omega
  unfold Frame.encode
  rw [hbounds.right.right.right, ← hsize, encode16_ofNat_size, ← hframe,
    encode16_decode16, hfour]
  rfl

/-- The packets of the protocol with their encoding. -/
def packetCodec : Codec UInt8 Frame where
  toFraming := packetFraming
  encode := Frame.encode
  legal := Frame.Legal
  next_encode := fun {f} c hf => by
    rw [length_encode]
    exact nextFrame_encode hf c
  encode_of_next := encode_of_nextFrame

theorem packetCodec_parse (b : List UInt8) : packetCodec.parse b = parseStream b := rfl

/--
The parse of a stream is the only split of it into legal packets and a rest that
is neither a packet nor starts with one.
-/
theorem parseStream_eq_iff {b : List UInt8} {frames : List Frame} {rest : List UInt8}
    {bad : Bool} :
    parseStream b = ⟨frames, rest, bad⟩ <->
      (forall f, f ∈ frames -> f.Legal) ∧ b = frames.flatMap Frame.encode ++ rest ∧
        nextFrame rest = if bad then .bad else .more :=
  packetCodec.parse_eq_iff

/-- What a packet says on the wire. -/
def Packet.frame (p : Packet) : Frame :=
  ⟨p.header.id, p.body⟩

/-- A packet whose size is in range puts a legal frame on the wire. -/
theorem wire_eq_encode {p : Packet} (hlow : HEADER_SIZE ≤ p.header.size.toNat)
    (hhigh : p.header.size.toNat ≤ PACKET_SIZE) :
    p.frame.Legal ∧ p.wire = p.frame.encode := by
  have hsizes := sizes_eq
  have hlength : p.body.length = p.header.size.toNat - HEADER_SIZE := by
    unfold Packet.body
    rw [List.length_take, p.length_message]
    omega
  have hsize : p.frame.size = p.header.size.toNat := by
    show HEADER_SIZE + p.body.length = _
    omega
  constructor
  · show p.body.length ≤ MESSAGE_SIZE
    omega
  · unfold Packet.wire Packet.toBytes Frame.encode
    rw [List.take_append, length_toBytes_header,
      List.take_of_length_le (by rw [length_toBytes_header]; exact hlow), hsize,
      UInt16.ofNat_toNat]
    rfl

theorem wire_makePacket_eq_encode (id : UInt16) (msg : List UInt8) :
    (makePacket id msg).frame.Legal ∧
      (makePacket id msg).wire = (makePacket id msg).frame.encode := by
  have hsizes := sizes_eq
  have hsize := size_makePacket id msg
  exact wire_eq_encode (by omega) (by omega)

/-- Bytes that two lists of legal packets spell, spell the same packets. -/
theorem flatMap_encode_injective {frames frames' : List Frame}
    (h : forall f, f ∈ frames -> f.Legal) (h' : forall f, f ∈ frames' -> f.Legal)
    (hsame : frames.flatMap Frame.encode = frames'.flatMap Frame.encode) :
    frames = frames' := by
  have hparse := parseStream_encode h
  rw [hsame, parseStream_encode h'] at hparse
  exact (Parsed.mk.inj hparse).left.symm

end Protocol
end ContentServer
