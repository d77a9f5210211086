import ContentServer.Foundation.Utf8
import ContentServer.Protocol.PacketStream

/-!
# The bot's codec

How the load bot writes and reads packets (`bot/protocol.go`).  A writer is the
bytes it was handed, a reader the bytes that it has left before the end of the
stream.
-/

namespace ContentServer
namespace Clients

open Foundation Protocol

/-- `headerSize`, `maxPayloadSize` and `maxPacketSize` of the bot. -/
abbrev headerSize : Nat := 4

abbrev maxPayloadSize : Nat := 256

abbrev maxPacketSize : Nat := headerSize + maxPayloadSize

def truncateUTF8 (b : List UInt8) (limit : Nat) : List UInt8 :=
  if b.length ≤ limit then b
  else trimUtf8 (b.take limit)

/-- The bytes that `writePacket` hands to the connection. -/
def writePacket (payload : List UInt8) : List UInt8 :=
  let body := truncateUTF8 payload maxPayloadSize
  encode16 (UInt16.ofNat (headerSize + body.length)) ++ encode16 0 ++ body

inductive ReadError where
  /-- The stream ended before the first byte asked for. -/
  | eof
  /-- The stream ended after some of the bytes asked for. -/
  | unexpectedEof
  /-- The error made from "잘못된 패킷 크기: %d". -/
  | badSize (size : UInt16)
deriving DecidableEq

/-- `io.ReadFull` into a buffer of `n` bytes: those bytes and the rest. -/
def readFull (r : List UInt8) (n : Nat) :
    Except ReadError (List UInt8 × List UInt8) :=
  if n ≤ r.length then .ok (r.take n, r.drop n)
  else if r = [] then .error .eof
  else .error .unexpectedEof

/-- `readPacket`: id, payload and the rest of the stream. -/
def readPacket (r : List UInt8) :
    Except ReadError ((UInt16 × List UInt8) × List UInt8) :=
  match readFull r headerSize with
  | .error e => .error e
  | .ok (header, afterHeader) =>
      let size := decode16 (header.getD 0 0) (header.getD 1 0)
      let id := decode16 (header.getD 2 0) (header.getD 3 0)
      if size.toNat < headerSize ∨ size.toNat > maxPacketSize then
        .error (.badSize size)
      else
        match readFull afterHeader (size.toNat - headerSize) with
        | .error e => .error e
        | .ok (payload, rest) => .ok ((id, payload), rest)

/-!
# Reading
-/

theorem readFull_append (b c : List UInt8) :
    readFull (b ++ c) b.length = .ok (b, c) := by
  unfold readFull
  rw [if_pos (by rw [List.length_append]; omega), List.take_left,
    List.drop_left]

theorem length_of_readFull {r got rest : List UInt8} {n : Nat}
    (h : readFull r n = .ok (got, rest)) : rest.length + n = r.length := by
  unfold readFull at h
  split at h
  · cases h
    rw [List.length_drop]
    omega
  · split at h <;> cases h

/-- A packet that was read took at least its header from the stream. -/
theorem length_lt_of_readPacket {r rest : List UInt8} {pkt : UInt16 × List UInt8}
    (h : readPacket r = .ok (pkt, rest)) : rest.length < r.length := by
  unfold readPacket at h
  split at h
  · cases h
  · rename_i header afterHeader hheader
    have hfirst := length_of_readFull hheader
    have hpos : 0 < headerSize := by decide
    simp only at h
    split at h
    · cases h
    · split at h
      · cases h
      · rename_i payload after hpayload
        have hsecond := length_of_readFull hpayload
        cases h
        omega

/-- The packets that `recvLoop` reads, and the error that ends it. -/
def readPackets (r : List UInt8) : List (UInt16 × List UInt8) × ReadError :=
  match _h : readPacket r with
  | .error e => ([], e)
  | .ok (pkt, rest) =>
      let later := readPackets rest
      (pkt :: later.1, later.2)
termination_by r.length
decreasing_by exact length_lt_of_readPacket _h

theorem readPackets_of_error {r : List UInt8} {e : ReadError}
    (h : readPacket r = .error e) : readPackets r = ([], e) := by
  rw [readPackets]
  split <;> rename_i hread <;> rw [h] at hread <;> cases hread
  rfl

theorem readPackets_of_ok {r rest : List UInt8} {pkt : UInt16 × List UInt8}
    (h : readPacket r = .ok (pkt, rest)) :
    readPackets r = (pkt :: (readPackets rest).1, (readPackets rest).2) := by
  rw [readPackets]
  split <;> rename_i hread <;> rw [h] at hread <;> cases hread
  rfl

/-- A well-formed packet at the front of the stream is read off it. -/
theorem readPacket_encode {f : Frame} (hf : f.Legal) (c : List UInt8) :
    readPacket (f.encode ++ c) = .ok ((f.id, f.body), c) := by
  have hbounds := hf.size_bounds
  have hsize : (UInt16.ofNat f.size).toNat = f.size := by
    rw [UInt16.toNat_ofNat']
    omega
  have hbody : f.size - headerSize = f.body.length := by
    unfold Frame.size
    rw [Nat.add_sub_cancel_left]
  have hheader : readFull (f.encode ++ c) headerSize =
      .ok (encode16 (UInt16.ofNat f.size) ++ encode16 f.id, f.body ++ c) := by
    unfold Frame.encode
    rw [List.append_assoc _ f.body c]
    exact readFull_append (encode16 (UInt16.ofNat f.size) ++ encode16 f.id) _
  unfold readPacket
  rw [hheader]
  simp only [encode16, List.cons_append, List.nil_append, List.getD_cons_zero,
    List.getD_cons_succ]
  rw [decode16_encode16, decode16_encode16, hsize,
    if_neg (by simp only [maxPacketSize, headerSize, maxPayloadSize]; omega),
    hbody, readFull_append]

/-- Reading a stream of well-formed packets ends at the end of the stream. -/
theorem readPackets_encode {frames : List Frame}
    (h : forall f, f ∈ frames -> f.Legal) :
    readPackets (frames.flatMap Frame.encode) =
      (frames.map fun f => (f.id, f.body), .eof) := by
  induction frames with
  | nil => exact readPackets_of_error rfl
  | cons f rest ih =>
      have hread := readPacket_encode (h f List.mem_cons_self)
        (rest.flatMap Frame.encode)
      rw [List.flatMap_cons, readPackets_of_ok hread,
        ih fun g hg => h g (List.mem_cons_of_mem f hg)]
      rfl

/-!
# Truncation
-/

/-- `r` is `b` cut to `limit` bytes at the cost of as few bytes as possible. -/
structure Truncated (b : List UInt8) (limit : Nat) (r : List UInt8) : Prop where
  isPrefix : r <+: b
  length_le : r.length ≤ limit
  whole : b.length ≤ limit -> r = b
  valid : limit < b.length -> utf8Valid r = true
  longest : limit < b.length -> forall p, p <+: b -> p.length ≤ limit ->
    utf8Valid p = true -> p <+: r
  lossless : utf8Valid b = true ->
    utf8Valid r = true ∧ min b.length limit ≤ r.length + 3

theorem truncateUTF8_of_le {b : List UInt8} {limit : Nat}
    (h : b.length ≤ limit) : truncateUTF8 b limit = b := by
  unfold truncateUTF8
  rw [if_pos h]

theorem truncateUTF8_of_lt {b : List UInt8} {limit : Nat}
    (h : limit < b.length) : truncateUTF8 b limit = trimUtf8 (b.take limit) := by
  unfold truncateUTF8
  rw [if_neg (Nat.not_le.mpr h)]

theorem prefix_truncateUTF8 {b p : List UInt8} {limit : Nat} (hinitial : p <+: b)
    (hlen : p.length ≤ limit) (hvalid : utf8Valid p = true) :
    p <+: truncateUTF8 b limit := by
  by_cases h : b.length ≤ limit
  · rw [truncateUTF8_of_le h]
    exact hinitial
  · rw [truncateUTF8_of_lt (Nat.not_le.mp h)]
    exact prefix_trimUtf8 hvalid _ (List.prefix_take_iff.mpr ⟨hinitial, hlen⟩)

theorem length_truncateUTF8_le (b : List UInt8) (limit : Nat) :
    (truncateUTF8 b limit).length ≤ limit := by
  by_cases h : b.length ≤ limit
  · rw [truncateUTF8_of_le h]
    exact h
  · rw [truncateUTF8_of_lt (Nat.not_le.mp h)]
    exact (trimUtf8_initial _).length_le.trans (List.length_take_le limit b)

/-- The truncation loses as little as possible. -/
theorem truncateUTF8_truncated (b : List UInt8) (limit : Nat) :
    Truncated b limit (truncateUTF8 b limit) where
  isPrefix := by
    by_cases h : b.length ≤ limit
    · rw [truncateUTF8_of_le h]
    · rw [truncateUTF8_of_lt (Nat.not_le.mp h)]
      exact (trimUtf8_initial _).trans (List.take_prefix limit b)
  length_le := length_truncateUTF8_le b limit
  whole := truncateUTF8_of_le
  valid := by
    intro h
    rw [truncateUTF8_of_lt h]
    exact utf8Valid_trimUtf8 _
  longest := by
    intro _ p hinitial hlen hvalid
    exact prefix_truncateUTF8 hinitial hlen hvalid
  lossless := by
    intro hvalid
    rcases exists_utf8Valid_prefix hvalid limit with ⟨p, hinitial, hp, hlen, hmin⟩
    have hkept := (prefix_truncateUTF8 hinitial hlen hp).length_le
    refine ⟨?_, by omega⟩
    by_cases h : b.length ≤ limit
    · rw [truncateUTF8_of_le h]
      exact hvalid
    · rw [truncateUTF8_of_lt (Nat.not_le.mp h)]
      exact utf8Valid_trimUtf8 _

/-- A two-byte character does not fit behind three one-byte ones. -/
example : truncateUTF8 (text "abc" ++ [0xC3, 0xA9]) 4 = text "abc" := by
  decide +kernel

end Clients
end ContentServer
