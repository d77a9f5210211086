import ContentServer.Foundation.Framing
import ContentServer.Protocol.Packet

/-!
# The packet stream

What a byte stream says as a sequence of packets: a four-byte little-endian
header whose size lies between 4 and 260, then `size - 4` body bytes.  This is
the reference that the receiver is compared with; it knows nothing of buffers.
-/

namespace ContentServer
namespace Protocol

open Foundation

/-- One packet as a client sent it. -/
structure Frame where
  id : UInt16
  body : List UInt8
deriving DecidableEq

/-- The size field of the packet. -/
def Frame.size (f : Frame) : Nat :=
  HEADER_SIZE + f.body.length

/-- A packet that the size limits admit. -/
def Frame.Legal (f : Frame) : Prop :=
  f.body.length ≤ MESSAGE_SIZE

instance (f : Frame) : Decidable f.Legal :=
  inferInstanceAs (Decidable (f.body.length ≤ MESSAGE_SIZE))

/-- The bytes of the packet on the wire. -/
def Frame.encode (f : Frame) : List UInt8 :=
  encode16 (UInt16.ofNat f.size) ++ encode16 f.id ++ f.body

/-- The verdict on the bytes at the front of a stream. -/
def nextFrame : List UInt8 -> Verdict Frame
  | lo :: hi :: idLo :: idHi :: tail =>
      let size := lo.toNat + 256 * hi.toNat
      if size < 4 ∨ 260 < size then .bad
      else if tail.length < size - 4 then .more
      else .frame size ⟨decode16 idLo idHi, tail.take (size - 4)⟩
  | _ => .more

theorem nextFrame_cons (lo hi idLo idHi : UInt8) (tail : List UInt8) :
    nextFrame (lo :: hi :: idLo :: idHi :: tail) =
      if lo.toNat + 256 * hi.toNat < 4 ∨ 260 < lo.toNat + 256 * hi.toNat then .bad
      else if tail.length < lo.toNat + 256 * hi.toNat - 4 then .more
      else .frame (lo.toNat + 256 * hi.toNat)
        ⟨decode16 idLo idHi, tail.take (lo.toNat + 256 * hi.toNat - 4)⟩ := rfl

theorem nextFrame_of_short {b : List UInt8} (h : b.length < 4) :
    nextFrame b = .more := by
  match b, h with
  | [], _ => rfl
  | [_], _ => rfl
  | [_, _], _ => rfl
  | [_, _, _], _ => rfl

/-- The verdict in terms of the header that the first four bytes spell. -/
theorem nextFrame_eq_header {b : List UInt8} (h : HEADER_SIZE ≤ b.length) :
    nextFrame b =
      if (PacketHeader.ofBytes b).size.toNat < HEADER_SIZE ∨
          (PacketHeader.ofBytes b).size.toNat > PACKET_SIZE then .bad
      else if b.length < (PacketHeader.ofBytes b).size.toNat then .more
      else .frame (PacketHeader.ofBytes b).size.toNat
        ⟨(PacketHeader.ofBytes b).id,
          (b.drop HEADER_SIZE).take
            ((PacketHeader.ofBytes b).size.toNat - HEADER_SIZE)⟩ := by
  match b, h with
  | lo :: hi :: idLo :: idHi :: tail, _ =>
      have hsize : (PacketHeader.ofBytes (lo :: hi :: idLo :: idHi :: tail)).size.toNat =
          lo.toNat + 256 * hi.toNat := toNat_decode16 lo hi
      rw [nextFrame_cons, hsize]
      split_ifs <;> first
        | rfl
        | (simp only [List.length_cons] at *; omega)

/-- A verdict other than waiting needs a complete header. -/
theorem exists_header_of_ne_more {b : List UInt8} (h : nextFrame b ≠ .more) :
    exists lo hi idLo idHi tail, b = lo :: hi :: idLo :: idHi :: tail := by
  match b with
  | [] => exact absurd rfl h
  | [_] => exact absurd rfl h
  | [_, _] => exact absurd rfl h
  | [_, _, _] => exact absurd rfl h
  | lo :: hi :: idLo :: idHi :: tail => exact ⟨lo, hi, idLo, idHi, tail, rfl⟩

theorem nextFrame_eq_frame {b : List UInt8} {size : Nat} {f : Frame}
    (h : nextFrame b = .frame size f) :
    4 ≤ size ∧ size ≤ 260 ∧ size ≤ b.length ∧ f.size = size := by
  rcases exists_header_of_ne_more (b := b) (by rw [h]; intro hc; cases hc) with
    ⟨lo, hi, idLo, idHi, tail, rfl⟩
  rw [nextFrame_cons] at h
  split_ifs at h with hbad hmore
  injection h with hsize hframe
  have hlen : f.body.length = lo.toNat + 256 * hi.toNat - 4 := by
    rw [← hframe]
    simp only [List.length_take]
    omega
  have hsizes := sizes_eq
  simp only [List.length_cons, Frame.size]
  omega

/-- The framing of the packet stream. -/
def packetFraming : Framing UInt8 Frame where
  next := nextFrame
  frame_pos := fun h => by
    have hle := nextFrame_eq_frame h
    omega
  frame_le := fun h => (nextFrame_eq_frame h).right.right.left
  frame_append := fun {b size value} c h => by
    rcases exists_header_of_ne_more (b := b) (by rw [h]; intro hc; cases hc) with
      ⟨lo, hi, idLo, idHi, tail, rfl⟩
    simp only [List.cons_append]
    rw [nextFrame_cons] at h ⊢
    split_ifs at h with hbad hmore
    injection h with hsize hvalue
    rw [if_neg hbad, if_neg (by rw [List.length_append]; omega),
      List.take_append_of_le_length (by omega), hvalue, hsize]
  bad_append := fun {b} c h => by
    rcases exists_header_of_ne_more (b := b) (by rw [h]; intro hc; cases hc) with
      ⟨lo, hi, idLo, idHi, tail, rfl⟩
    simp only [List.cons_append]
    rw [nextFrame_cons] at h ⊢
    split_ifs at h with hbad
    rw [if_pos hbad]

/-- The greedy parse of a byte stream. -/
def parseStream (b : List UInt8) : Parsed UInt8 Frame :=
  packetFraming.parse b

/-- What the parse leaves over is shorter than one packet. -/
theorem length_rest_lt {b : List UInt8} (h : (parseStream b).bad = false) :
    (parseStream b).rest.length < 260 := by
  have hnext : nextFrame (parseStream b).rest = .more := by
    have hrest := packetFraming.next_rest b
    have hbad : (packetFraming.parse b).bad = false := h
    rw [hbad] at hrest
    exact hrest
  by_contra hlong
  match hrest : (parseStream b).rest with
  | [] => simp [hrest] at hlong
  | [_] => simp [hrest] at hlong
  | [_, _] => simp [hrest] at hlong
  | [_, _, _] => simp [hrest] at hlong
  | lo :: hi :: idLo :: idHi :: tail =>
      rw [hrest] at hnext hlong
      rw [nextFrame_cons] at hnext
      simp only [List.length_cons] at hlong
      split_ifs at hnext with hbad hmore
      omega

/-!
# Streams of well-formed packets
-/

theorem Frame.Legal.size_bounds {f : Frame} (hf : f.Legal) :
    4 ≤ f.size ∧ f.size ≤ 260 := by
  have hsizes := sizes_eq
  unfold Frame.Legal at hf
  unfold Frame.size
  omega

theorem nextFrame_encode {f : Frame} (hf : f.Legal) (c : List UInt8) :
    nextFrame (f.encode ++ c) = .frame f.size f := by
  have hbounds := hf.size_bounds
  have hsizes := sizes_eq
  have hsize : (UInt16.ofNat f.size).toNat = f.size := by
    simp only [UInt16.toNat_ofNat']
    omega
  have hdecode : (UInt8.ofNat (f.size % 256)).toNat +
      256 * (UInt8.ofNat (f.size / 256)).toNat = f.size := by
    simp only [UInt8.toNat_ofNat']
    omega
  have hbody : f.size - 4 = f.body.length := by
    unfold Frame.size
    omega
  simp only [Frame.encode, encode16, List.cons_append, List.nil_append,
    hsize, nextFrame_cons, hdecode, decode16_encode16, hbody]
  rw [if_neg (by omega), if_neg (by rw [List.length_append]; omega),
    List.take_left]

@[simp] theorem length_encode (f : Frame) : f.encode.length = f.size := by
  simp only [Frame.encode, Frame.size, List.length_append, length_encode16]

theorem length_flatMap_encode (frames : List Frame) :
    (frames.flatMap Frame.encode).length = (frames.map Frame.size).sum := by
  rw [List.length_flatMap]
  congr 1
  exact List.map_congr_left fun f _ => length_encode f

/-- Encoding and then parsing returns the packets. -/
theorem parseStream_encode {frames : List Frame}
    (h : forall f, f ∈ frames -> f.Legal) :
    parseStream (frames.flatMap Frame.encode) = ⟨frames, [], false⟩ := by
  induction frames with
  | nil => exact Framing.parse_of_more rfl
  | cons f rest ih =>
      have hf : f.Legal := h f List.mem_cons_self
      have hrest := ih (fun g hg => h g (List.mem_cons_of_mem f hg))
      have hnext : packetFraming.next (f.encode ++ rest.flatMap Frame.encode) =
          .frame f.size f := nextFrame_encode hf _
      rw [List.flatMap_cons]
      unfold parseStream at *
      rw [Framing.parse_of_frame hnext, List.drop_left' (length_encode f), hrest]

/-- The bytes are those of well-formed packets, the last one perhaps cut. -/
def SpellsPackets (b : List UInt8) : Prop :=
  exists (frames : List Frame) (tail : List UInt8),
    (forall f, f ∈ frames -> f.Legal) ∧
      b ++ tail = frames.flatMap Frame.encode

theorem SpellsPackets.of_append {b c : List UInt8}
    (h : SpellsPackets (b ++ c)) : SpellsPackets b := by
  rcases h with ⟨frames, tail, hlegal, hbytes⟩
  exact ⟨frames, c ++ tail, hlegal, by rw [← hbytes, List.append_assoc]⟩

theorem bad_eq_false_of_spellsPackets {b : List UInt8} (h : SpellsPackets b) :
    (parseStream b).bad = false := by
  rcases h with ⟨frames, tail, hlegal, hbytes⟩
  have hparse := parseStream_encode hlegal
  exact (Framing.parse_of_prefix (F := packetFraming) ⟨tail, hbytes⟩
    (congrArg Parsed.bad hparse)).left

end Protocol
end ContentServer
