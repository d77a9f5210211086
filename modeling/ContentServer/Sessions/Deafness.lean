import ContentServer.Sessions.ReceivePath

/-!
# When the receive path goes deaf

`PostRecv` posts the free cells between the tail and the end of the array.  The
slot that has to stay empty is taken off at the end of the array even when the
empty slot is elsewhere, so a tail on the last cell leaves nothing to post
although almost the whole buffer is free.  The tail gets there with byte 4095 and
never comes round: a session receives no byte after it.
-/

namespace ContentServer
namespace Sessions

open Buffers Foundation Protocol

/-- One receive completion that carries bytes. -/
structure Chunk where
  bytes : List UInt8
  junk : Nat -> Packet

/-- The completion of a chunk; `WSARecv` does not fail at once. -/
def Chunk.event (chunk : Chunk) : Conn.Event :=
  .recvCompletion true chunk.bytes chunk.junk .started

/-- The bytes of a sequence of chunks. -/
def chunkBytes (chunks : List Chunk) : List UInt8 :=
  chunks.flatMap Chunk.bytes

/--
Unless the session is closing, a receive of positive length is outstanding, and
`PostRecv` did not give up while the ring had free space.
-/
def Conn.Hears (c : Conn) : Prop :=
  c.session.closing = false ->
    (exists buf, buf ∈ c.recvs ∧ 0 < buf.len) ∧
      ¬ (c.session.recvBuffer.getLinearEmptySize = 0 ∧
        0 < c.session.recvBuffer.getEmptySize)

/-- With less than a packet buffered, only the last cell stops the tail. -/
theorem getLinearEmptySize_eq_zero_iff (r : RingBuffer)
    (h : r.getUsedSize < 260) :
    r.getLinearEmptySize = 0 <-> r.tail = BUFFER_SIZE - 1 := by
  have hh := r.head_lt
  have ht := r.tail_lt
  rw [RingBuffer.getUsedSize_eq] at h
  unfold RingBuffer.getLinearEmptySize
  simp only [BUFFER_SIZE] at *
  split_ifs at h ⊢ <;> omega

theorem Framed.hears_iff {owner : Session} {stream : List UInt8} {c : Conn}
    (h : Framed owner stream c) (hgood : (parseStream stream).bad = false)
    (hlate : c.accepting = false) (hopen : c.session.closing = false) :
    c.Hears <-> stream.length ≠ BUFFER_SIZE - 1 := by
  have hused : c.session.recvBuffer.getUsedSize < 260 := by
    rw [← RingBuffer.length_contents, h.contents]
    exact length_rest_lt hgood
  have hzero := getLinearEmptySize_eq_zero_iff c.session.recvBuffer hused
  rw [h.tail] at hzero
  constructor
  · intro hhears hlast
    rcases hhears hopen with ⟨_, hfree⟩
    apply hfree
    refine ⟨hzero.mpr hlast, ?_⟩
    unfold RingBuffer.getEmptySize
    simp only [BUFFER_SIZE]
    omega
  · intro hlast _
    have hpos : c.session.recvBuffer.getLinearEmptySize ≠ 0 :=
      fun hcontra => hlast (hzero.mp hcontra)
    refine ⟨?_, fun hcontra => hpos hcontra.left⟩
    cases hrecvs : c.recvs with
    | nil => exact absurd (h.deaf hlate hopen hrecvs) hpos
    | cons buf rest =>
        have hmem : buf ∈ c.recvs := by
          rw [hrecvs]
          exact List.mem_cons_self
        exact ⟨buf, List.mem_cons_self, (h.posted buf hmem).right⟩

/-- A good chunk neither closes the session nor undoes the accept. -/
theorem Framed.chunk_open {owner : Session} {stream : List UInt8} {c d : Conn}
    {chunk : Chunk} (h : Framed owner stream c)
    (hgood : (parseStream (stream ++ chunk.bytes)).bad = false)
    (hbytes : chunk.bytes ≠ [])
    (hopen : c.session.closing = false) (hlate : c.accepting = false)
    (hstep : c.step chunk.event = some d) :
    d.session.closing = false ∧ d.accepting = false := by
  rcases Conn.step_cases hstep with
    ⟨_, hcontra, _, _⟩ |
    ⟨ok, bytes, junk, result, buf, rest, hevent, hrecvs, hlen, rfl⟩ |
    ⟨_, _, _, _, _, hcontra, _, _, _⟩ |
    ⟨_, _, hcontra, _⟩ | ⟨hcontra, _, _⟩
  · cases hcontra
  · injection hevent with hok hchunk hjunk hresult
    subst hok hchunk hjunk hresult
    refine ⟨?_, hlate⟩
    have hmem : buf ∈ c.recvs := by
      rw [hrecvs]
      exact List.mem_cons_self
    have honRecv : (c.receive buf chunk.bytes).handleCompletion true .recv
        chunk.bytes.length chunk.junk .started =
        (c.receive buf chunk.bytes).onRecv chunk.bytes.length chunk.junk
          .started := by
      simp [Session.handleCompletion, hbytes]
    have hcall := onRecv_recvCall (c.receive buf chunk.bytes)
      chunk.bytes.length chunk.junk .started
    have hcount := closeCount_onRecv_started (c.receive buf chunk.bytes)
      chunk.bytes.length chunk.junk
    rw [h.bad_receive hmem hlen, hgood] at hcount
    show ((c.receive buf chunk.bytes).handleCompletion true .recv
      chunk.bytes.length chunk.junk .started).session.closing = false
    rw [honRecv, hcall.closing, hcount]
    show (c.session.closing || decide (0 < 0)) = false
    rw [hopen]
    rfl
  · cases hcontra
  · cases hcontra
  · cases hcontra

/-- A run of good chunks keeps the session open. -/
theorem chunks_open {s : Session} {socket : Nat} {index : Slot} {id handler : Nat}
    {start c : Conn} {chunks : List Chunk}
    (hstart : (Conn.fresh s socket index id handler).step (.postRecv .started) =
      some start)
    (hbytes : forall chunk, chunk ∈ chunks -> chunk.bytes ≠ [])
    (hgood : SpellsPackets (chunkBytes chunks))
    (hrun : runFrom Conn.step start (chunks.map Chunk.event) = some c) :
    Framed (s.init socket index id handler) (chunkBytes chunks) c ∧
      c.session.closing = false ∧ c.accepting = false := by
  induction chunks using List.reverseRecOn generalizing c with
  | nil =>
      cases hrun
      have hframed := framed_step (framed_fresh s socket index id handler) hstart
      refine ⟨hframed, ?_⟩
      cases hstart
      have hcall := postRecv_recvCall (s.init socket index id handler) .started
      have hcount := closeCount_postRecv_started (s.init socket index id handler)
      refine ⟨?_, rfl⟩
      show ((s.init socket index id handler).postRecv .started).session.closing = false
      rw [hcall.closing, hcount]
      rfl
  | append_singleton pre chunk ih =>
      have hsplit : chunkBytes (pre ++ [chunk]) = chunkBytes pre ++ chunk.bytes := by
        simp [chunkBytes]
      rw [hsplit] at hgood ⊢
      rw [List.map_append] at hrun
      rcases runFrom_snoc_some hrun with ⟨u, hpre, hlast⟩
      rcases ih (fun x hx => hbytes x (List.mem_append_left _ hx))
          hgood.of_append hpre with ⟨hframed, hopen, hlate⟩
      have hne : chunk.bytes ≠ [] :=
        hbytes chunk (List.mem_append_right _ (List.mem_singleton_self chunk))
      exact ⟨framed_step hframed hlast,
        hframed.chunk_open (bad_eq_false_of_spellsPackets hgood) hne hopen hlate
          hlast⟩

/--
Along a run of well-formed chunks the session keeps hearing exactly as long as
it receives fewer than 4095 bytes in all.
-/
theorem receive_path_hears_iff
    {s : Session} {socket : Nat} {index : Slot} {id handler : Nat}
    {start c : Conn} {chunks : List Chunk}
    (hstart : (Conn.fresh s socket index id handler).step (.postRecv .started) =
      some start)
    (hbytes : forall chunk, chunk ∈ chunks -> chunk.bytes ≠ [])
    (hgood : SpellsPackets (chunkBytes chunks))
    (hrun : runFrom Conn.step start (chunks.map Chunk.event) = some c) :
    (forall d, Visits Conn.step start (chunks.map Chunk.event) d -> d.Hears) <->
      (chunkBytes chunks).length < BUFFER_SIZE - 1 := by
  have hsofar : forall pre post u, chunks = pre ++ post ->
      runFrom Conn.step start (pre.map Chunk.event) = some u ->
      (u.Hears <-> (chunkBytes pre).length ≠ BUFFER_SIZE - 1) := by
    intro pre post u hsplit hpre
    have hspells : SpellsPackets (chunkBytes pre) := by
      rw [hsplit] at hgood
      unfold chunkBytes at hgood
      rw [List.flatMap_append] at hgood
      exact hgood.of_append
    rcases chunks_open hstart
        (fun x hx => hbytes x (by rw [hsplit]; exact List.mem_append_left _ hx))
        hspells hpre with ⟨hframed, hopen, hlate⟩
    exact hframed.hears_iff (bad_eq_false_of_spellsPackets hspells) hlate hopen
  constructor
  · intro hhears
    have hlast := (hsofar chunks [] c (List.append_nil chunks).symm hrun).mp
      (hhears c (visits_last hrun))
    have hbound := (chunks_open hstart hbytes hgood hrun).left.length_lt
    omega
  · intro htotal d hvisit
    rcases hvisit with ⟨pre, post, hsplit, hpre⟩
    rcases List.map_eq_append_iff.mp hsplit with
      ⟨preChunks, postChunks, hchunks, rfl, rfl⟩
    apply (hsofar preChunks postChunks d hchunks hpre).mpr
    have hsum : (chunkBytes chunks).length =
        (chunkBytes preChunks).length + (chunkBytes postChunks).length := by
      rw [hchunks, chunkBytes, List.flatMap_append, List.length_append]
      rfl
    omega

/-- The packets `hi` and `there`. -/
def greetingBytes : List UInt8 :=
  [(⟨0, text "hi"⟩ : Frame), ⟨0, text "there"⟩].flatMap Frame.encode

/-- They arrive in three chunks, cut inside the second header and the body. -/
def greetingChunks : List Chunk :=
  [greetingBytes.take 8, (greetingBytes.drop 8).take 3, greetingBytes.drop 11].map
    fun bytes => ⟨bytes, fun _ => makePacket 0 []⟩

def listeningStart : Conn :=
  { (Conn.first 65543) with accepting := false }.after
    ((Conn.first 65543).session.postRecv .started)

theorem listeningStart_eq :
    (Conn.first 65543).step (.postRecv .started) =
      some listeningStart := rfl

theorem receive_path_hears_iff_greeting :
    exists c, runFrom Conn.step listeningStart
        (greetingChunks.map Chunk.event) = some c ∧
      forall d, Visits Conn.step listeningStart
        (greetingChunks.map Chunk.event) d -> d.Hears := by
  have hrun : exists c, runFrom Conn.step listeningStart
      (greetingChunks.map Chunk.event) = some c :=
    Option.isSome_iff_exists.mp (by decide +kernel)
  rcases hrun with ⟨c, hrun⟩
  have hspells : SpellsPackets (chunkBytes greetingChunks) :=
    ⟨[⟨0, text "hi"⟩, ⟨0, text "there"⟩], [], by decide, by decide⟩
  have hne : forall chunk, chunk ∈ greetingChunks -> chunk.bytes ≠ [] := by
    intro chunk hchunk
    rcases List.mem_map.mp hchunk with ⟨bytes, hbytes, rfl⟩
    have hall : forall b, b ∈ [greetingBytes.take 8,
        (greetingBytes.drop 8).take 3, greetingBytes.drop 11] -> b ≠ [] := by
      decide
    exact hall bytes hbytes
  exact ⟨c, hrun,
    (receive_path_hears_iff listeningStart_eq hne hspells hrun).mpr (by decide)⟩

/-- A packet of `n` zero bytes. -/
def zeroFrame (n : Nat) : Frame :=
  ⟨0, List.replicate n 0⟩

theorem size_zeroFrame (n : Nat) : (zeroFrame n).size = 4 + n :=
  congrArg (4 + ·) List.length_replicate

theorem legal_zeroFrame {n : Nat} (h : n ≤ MESSAGE_SIZE) :
    (zeroFrame n).Legal := by
  unfold Frame.Legal zeroFrame
  rw [List.length_replicate]
  exact h

/-- Fifteen packets of 260 bytes and one of 195, 4095 bytes in all. -/
def fullFrames : List Frame :=
  List.replicate 15 (zeroFrame 256) ++ [zeroFrame 191]

def fullChunk : Chunk where
  bytes := fullFrames.flatMap Frame.encode
  junk := fun _ => makePacket 0 []

theorem length_fullChunk : fullChunk.bytes.length = 4095 := by
  show (fullFrames.flatMap Frame.encode).length = 4095
  rw [length_flatMap_encode, fullFrames, List.map_append, List.map_replicate,
    List.map_singleton, size_zeroFrame, size_zeroFrame]
  rfl

theorem legal_fullFrames : forall f, f ∈ fullFrames -> f.Legal := by
  intro f hf
  rcases List.mem_append.mp hf with hf | hf
  · rw [List.eq_of_mem_replicate hf]
    exact legal_zeroFrame (Nat.le_refl _)
  · rw [List.mem_singleton.mp hf]
    exact legal_zeroFrame (by decide)

/--
After these 4095 well-formed bytes the session is open and nearly the whole
ring is free, yet nothing is posted.
-/
theorem receive_path_deaf_fullChunk :
    SpellsPackets (chunkBytes [fullChunk]) ∧
      exists c, runFrom Conn.step listeningStart [fullChunk.event] = some c ∧
        c.session.closing = false ∧ ¬ c.Hears := by
  have hspells : SpellsPackets (chunkBytes [fullChunk]) := by
    refine ⟨fullFrames, [], legal_fullFrames, ?_⟩
    rw [List.append_nil, chunkBytes, List.flatMap_singleton]
    rfl
  have hrecvs : listeningStart.recvs = [⟨0, 4095⟩] := rfl
  have hrun : exists c,
      runFrom Conn.step listeningStart ([fullChunk].map Chunk.event) = some c := by
    simp only [List.map_cons, List.map_nil, runFrom, Chunk.event, Conn.step, hrecvs]
    rw [if_pos (Nat.le_of_eq length_fullChunk)]
    exact ⟨_, rfl⟩
  rcases hrun with ⟨c, hrun⟩
  have hne : forall chunk, chunk ∈ [fullChunk] -> chunk.bytes ≠ [] := by
    intro chunk hchunk hnil
    rw [List.mem_singleton.mp hchunk] at hnil
    have hlen := length_fullChunk
    rw [hnil] at hlen
    cases hlen
  rcases chunks_open listeningStart_eq hne hspells hrun with
    ⟨hframed, hopen, hlate⟩
  have hiff := hframed.hears_iff (bad_eq_false_of_spellsPackets hspells) hlate
    hopen
  refine ⟨hspells, c, hrun, hopen, fun hhears => hiff.mp hhears ?_⟩
  rw [chunkBytes, List.flatMap_singleton, length_fullChunk]
  rfl

end Sessions
end ContentServer
