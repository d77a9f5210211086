import ContentServer.Clients.BotProtocol
import ContentServer.Sessions.ReceivePath

/-!
# The bot and the server over whole streams

Each side writes one half of the packet format and reads the other.  Both
writers produce encodings of legal frames, so what the bot writes the receive
loop takes apart again, and what the server makes the bot reads back.
-/

namespace ContentServer
namespace Clients

open Buffers Foundation Protocol Sessions

/-- The frame that the bot writes for a payload. -/
def botFrame (payload : List UInt8) : Frame :=
  ⟨0, truncateUTF8 payload maxPayloadSize⟩

/-- The frame that a made packet puts on the wire. -/
def madeFrame (id : Nat) (msg : List UInt8) : Frame :=
  ⟨UInt16.ofNat id, msg.take MESSAGE_SIZE⟩

theorem legal_botFrame (payload : List UInt8) : (botFrame payload).Legal :=
  length_truncateUTF8_le payload maxPayloadSize

theorem encode_madeFrame (id : Nat) (msg : List UInt8) :
    (madeFrame id msg).encode = (makePacket (UInt16.ofNat id) msg).wire := by
  rw [wire_makePacket]
  unfold Frame.encode Frame.size madeFrame
  rw [List.length_take, Nat.min_comm]
  rfl

theorem legal_madeFrame (id : Nat) (msg : List UInt8) :
    (madeFrame id msg).Legal :=
  List.length_take_le MESSAGE_SIZE msg

theorem flatMap_writePacket (payloads : List (List UInt8)) :
    payloads.flatMap writePacket = (payloads.map botFrame).flatMap Frame.encode :=
  (List.flatMap_map botFrame Frame.encode payloads).symm

theorem legal_map_botFrame (payloads : List (List UInt8)) :
    forall f, f ∈ payloads.map botFrame -> f.Legal := by
  intro f hf
  rcases List.mem_map.mp hf with ⟨payload, _, rfl⟩
  exact legal_botFrame payload

/-- What the bot writes is a stream of well-formed packets, also when cut. -/
theorem spellsPackets_of_initial {payloads : List (List UInt8)} {b : List UInt8}
    (h : b <+: payloads.flatMap writePacket) : SpellsPackets b := by
  rcases h with ⟨tail, htail⟩
  refine ⟨payloads.map botFrame, tail, legal_map_botFrame payloads, ?_⟩
  rw [htail, flatMap_writePacket]

/--
The codecs agree.  What the bot writes arrives as one packet for each payload,
however the network cuts it, and no `OnRecv` on the way closes the session.
What the server makes the bot reads back, up to the end of the stream.  A session
receives at most 4095 bytes, so the payloads that arrive completely are those
within this bound.
-/
theorem codecs_agree {s : Session} {socket : Nat} {index : Slot}
    {id handler : Nat} {events : List Conn.Event} {c : Conn}
    (hrun : runFrom Conn.step (Conn.fresh s socket index id handler) events =
      some c)
    (payloads : List (List UInt8)) (made : List (Nat × List UInt8)) :
    (received events = payloads.flatMap writePacket ->
      (pushes c.calls).map delivery = payloads.map fun payload =>
        { sessionId := id
          size := headerSize + (truncateUTF8 payload 256).length
          id := id % 65536
          body := truncateUTF8 payload 256 }) ∧
    (forall buf bytes junk, buf ∈ c.recvs -> bytes.length ≤ buf.len ->
      received events ++ bytes <+: payloads.flatMap writePacket ->
        closeCount ({ c.receive buf bytes with
          recvBuffer :=
            (c.receive buf bytes).recvBuffer.moveTail bytes.length
        }.onRecvLoop junk).calls = 0 ∧
        closeCount ((c.receive buf bytes).onRecv bytes.length junk
          .started).calls = 0) ∧
    readPackets (made.flatMap fun p => (makePacket (UInt16.ofNat p.1) p.2).wire) =
      (made.map fun p => (UInt16.ofNat (p.1 % 65536), p.2.take (min 256 p.2.length)),
        .eof) ∧
    (received events).length < BUFFER_SIZE := by
  have hframed := framed_run hrun
  refine ⟨?_, ?_, ?_, length_received_lt hrun⟩
  · intro hstream
    rw [hframed.pushed, hstream, flatMap_writePacket,
      parseStream_encode (legal_map_botFrame payloads), List.map_map]
    rfl
  · intro buf bytes junk hbuf hlen hinitial
    have hgood := bad_eq_false_of_spellsPackets (spellsPackets_of_initial hinitial)
    have hcloses := hframed.closes_iff hbuf hlen junk
    rw [hgood] at hcloses
    simp only [Bool.false_eq_true, iff_false, Nat.not_lt, Nat.le_zero] at hcloses
    exact hcloses
  · have hframes : (made.flatMap fun p => (makePacket (UInt16.ofNat p.1) p.2).wire) =
        (made.map fun p => madeFrame p.1 p.2).flatMap Frame.encode := by
      rw [List.flatMap_map]
      apply List.flatMap_congr
      intro p _
      exact (encode_madeFrame p.1 p.2).symm
    have hlegal : forall f, f ∈ (made.map fun p => madeFrame p.1 p.2) -> f.Legal := by
      intro f hf
      rcases List.mem_map.mp hf with ⟨p, _, rfl⟩
      exact legal_madeFrame p.1 p.2
    rw [hframes, readPackets_encode hlegal, List.map_map]
    congr 1
    apply List.map_congr_left
    intro p _
    show (UInt16.ofNat p.1, p.2.take 256) = _
    have hid : UInt16.ofNat (p.1 % 65536) = UInt16.ofNat p.1 := by
      apply UInt16.toNat_inj.mp
      rw [UInt16.toNat_ofNat', UInt16.toNat_ofNat', Nat.mod_mod]
    rw [hid, ← List.take_eq_take_min]

/-- Two commands and between them a payload that is cut to 256 letters. -/
def botPayloads : List (List UInt8) :=
  [text "/n bot", List.replicate 300 97, text "/i rank"]

/-- Session 65543 receives what a bot wrote in three pieces. -/
def botGreeting : List Conn.Event :=
  let wire := botPayloads.flatMap writePacket
  .postRecv .started ::
    [wire.take 3, (wire.drop 3).take 100, wire.drop 103].map fun bytes =>
      .recvCompletion true bytes (fun _ => makePacket 0 []) .started

theorem codecs_agree_greeting :
    exists c, runFrom Conn.step (Conn.first 65543) botGreeting = some c ∧
      (pushes c.calls).map delivery =
        [⟨65543, 10, 7, text "/n bot"⟩, ⟨65543, 260, 7, List.replicate 256 97⟩,
          ⟨65543, 11, 7, text "/i rank"⟩] ∧
      readPackets ([(65543, text "hi"), (0, List.replicate 300 98)].flatMap
          fun p => (makePacket (UInt16.ofNat p.1) p.2).wire) =
        ([(7, text "hi"), (0, List.replicate 256 98)], .eof) := by
  have hrun : exists c, runFrom Conn.step (Conn.first 65543) botGreeting = some c :=
    Option.isSome_iff_exists.mp (by decide +kernel)
  rcases hrun with ⟨c, hrun⟩
  have hagree := codecs_agree hrun botPayloads
    [(65543, text "hi"), (0, List.replicate 300 98)]
  have hstream : received botGreeting = botPayloads.flatMap writePacket := by
    decide +kernel
  refine ⟨c, hrun, ?_, ?_⟩
  · rw [hagree.left hstream]
    decide +kernel
  · rw [hagree.right.right.left]
    decide +kernel

end Clients
end ContentServer
