import ContentServer.Sessions.Deafness

/-!
# The input line of the chat client

What the Go client sends when the user presses Enter.  The size field has 16
bits and the line any length, while the server takes bodies of at most 256
bytes: longer lines end the session or are taken for several packets.  Lines
that fit arrive as long as the session has not received 4095 bytes.
-/

namespace ContentServer
namespace Clients

open Buffers Foundation Protocol Sessions

/-- The fields of `ChatUI` that belong to the input line. -/
structure ChatInput where
  input : List Char
  showCommandPopup : Bool
  selectedCommand : Nat
deriving DecidableEq

/-- The names in `commands`. -/
def commandNames : List String := ["/?", "/w", "/f", "/i"]

/-- The bytes of `packet` in `sendPacket`. -/
def sendPacket (message : List UInt8) : List UInt8 :=
  encode16 (UInt16.ofNat (HEADER_SIZE + message.length)) ++ encode16 0 ++ message

namespace ChatInput

/-- `string(ui.input)` -/
def message (ui : ChatInput) : List UInt8 :=
  ui.input.flatMap String.utf8EncodeChar

/-- The names of the commands that start with the input. -/
def getFilteredCommands (ui : ChatInput) : List String :=
  commandNames.filter fun name => ui.input.isPrefixOf name.toList

/-- The state after Enter and the bytes that are written to the connection.  An
index outside the filtered commands is a panic; nothing is written then. -/
def handleEnter (ui : ChatInput) : ChatInput × Option (List UInt8) :=
  if ui.input = [] then (ui, none)
  else if ui.showCommandPopup ∧ ui.getFilteredCommands ≠ [] then
    match ui.getFilteredCommands[ui.selectedCommand]? with
    | some name => (⟨name.toList, false, 0⟩, none)
    | none => (ui, none)
  else (⟨[], false, 0⟩, some (sendPacket ui.message))

/-- What is written is the packet of a line that is not empty. -/
theorem handleEnter_eq_some {ui after : ChatInput} {packet : List UInt8}
    (h : ui.handleEnter = (after, some packet)) :
    ui.input ≠ [] ∧ packet = sendPacket ui.message := by
  unfold handleEnter at h
  split at h
  · cases h
  · rename_i hne
    split at h
    · split at h <;> cases h
    · cases h
      exact ⟨hne, rfl⟩

end ChatInput

/-- What the client has written after these lines. -/
def written (lines : List (List UInt8)) : List UInt8 :=
  lines.flatMap sendPacket

/-- The events lead some session from `Init` to this state. -/
def Reaches (events : List Conn.Event) (c : Conn) : Prop :=
  exists s socket index id handler,
    runFrom Conn.step (Conn.fresh s socket index id handler) events = some c

/--
The written bytes of a line reach every session intact, however the network cuts
them.  The client has sent earlier lines over the same connection.
-/
structure ArrivesIntact (earlier : List (List UInt8))
    (packet message : List UInt8) : Prop where
  /-- Until all bytes are there, an open session has a receive outstanding. -/
  fed : forall {events : List Conn.Event} {c : Conn}, Reaches events c ->
    c.accepting = false -> c.session.closing = false ->
      received events <+: written earlier ++ packet ->
        received events ≠ written earlier ++ packet ->
          exists buf, buf ∈ c.recvs ∧ 0 < buf.len
  /-- All bytes together make one more packet, with the message or its beginning. -/
  whole : forall {events : List Conn.Event} {c : Conn}, Reaches events c ->
    received events = written earlier ++ packet ->
      exists before d, (pushes c.calls).map delivery = before ++ [d] ∧
        before.length = earlier.length ∧ d.body <+: message
  /-- No part of the bytes is taken for a further packet. -/
  single : forall {events : List Conn.Event} {c : Conn}, Reaches events c ->
    received events <+: written earlier ++ packet ->
      (pushes c.calls).length ≤ earlier.length + 1
  /-- The receive loop closes at none of the bytes. -/
  opened : forall {events : List Conn.Event} {c : Conn}, Reaches events c ->
    forall buf bytes junk, buf ∈ c.recvs -> bytes.length ≤ buf.len ->
      received events ++ bytes <+: written earlier ++ packet ->
        closeCount ({ c.receive buf bytes with
          recvBuffer :=
            (c.receive buf bytes).recvBuffer.moveTail bytes.length
        }.onRecvLoop junk).calls = 0

/-!
# Lines that fit
-/

theorem length_sendPacket (message : List UInt8) :
    (sendPacket message).length = HEADER_SIZE + message.length := by
  unfold sendPacket
  rw [List.length_append]
  rfl

theorem written_cons (line : List UInt8) (lines : List (List UInt8)) :
    written (line :: lines) = sendPacket line ++ written lines := rfl

theorem written_append_sendPacket (earlier : List (List UInt8))
    (message : List UInt8) :
    written earlier ++ sendPacket message = written (earlier ++ [message]) := by
  unfold written
  rw [List.flatMap_append, List.flatMap_singleton]

/-- Lines that fit are parsed one by one. -/
theorem parseStream_written {lines : List (List UInt8)}
    (h : forall line, line ∈ lines -> line.length ≤ 256) :
    parseStream (written lines) = ⟨lines.map (Frame.mk 0), [], false⟩ := by
  have hlegal : forall f, f ∈ lines.map (Frame.mk 0) -> f.Legal := by
    intro f hf
    rcases List.mem_map.mp hf with ⟨line, hline, rfl⟩
    exact h line hline
  have hparse := parseStream_encode hlegal
  rw [List.flatMap_map] at hparse
  exact hparse

/-- Without a wrapped size, only lines that fit are not rejected. -/
theorem short_of_good {lines : List (List UInt8)}
    (hlen : (written lines).length < 65536)
    (hgood : (parseStream (written lines)).bad = false) :
    forall line, line ∈ lines -> line.length ≤ 256 := by
  induction lines with
  | nil => exact fun line hline => by cases hline
  | cons first rest ih =>
      rw [written_cons] at hlen hgood
      rw [List.length_append, length_sendPacket] at hlen
      have hsizes := sizes_eq
      by_cases hfirst : first.length ≤ 256
      · have hnext : packetFraming.next (sendPacket first ++ written rest) =
            .frame (Frame.size ⟨0, first⟩) ⟨0, first⟩ :=
          nextFrame_encode (f := ⟨0, first⟩) hfirst (written rest)
        have hsize : (sendPacket first).length = Frame.size ⟨0, first⟩ :=
          length_encode ⟨0, first⟩
        unfold parseStream at hgood
        rw [Framing.parse_of_frame hnext, List.drop_left' hsize] at hgood
        intro line hline
        rcases List.mem_cons.mp hline with rfl | hline
        · exact hfirst
        · exact ih (by omega) hgood line hline
      · have hnext : packetFraming.next (sendPacket first ++ written rest) =
            .bad := by
          have hheader := nextFrame_eq_header
            (b := sendPacket first ++ written rest)
            (by rw [List.length_append, length_sendPacket]; omega)
          have hbytes : PacketHeader.ofBytes (sendPacket first ++ written rest) =
              ⟨UInt16.ofNat (HEADER_SIZE + first.length), 0⟩ := by
            show PacketHeader.ofBytes (PacketHeader.toBytes
              ⟨UInt16.ofNat (HEADER_SIZE + first.length), 0⟩ ++ first ++
                written rest) = _
            rw [List.append_assoc]
            exact ofBytes_toBytes_header _ _
          rw [hbytes, UInt16.toNat_ofNat', Nat.mod_eq_of_lt (by omega),
            if_pos (by omega)] at hheader
          exact hheader
        unfold parseStream at hgood
        rw [Framing.parse_of_bad hnext] at hgood
        cases hgood

/-- Lines that fit arrive as long as there is room for all of them. -/
theorem arrivesIntact_of_fits {earlier : List (List UInt8)}
    {message : List UInt8}
    (hshort : forall line, line ∈ earlier ++ [message] -> line.length ≤ 256)
    (hroom : (written (earlier ++ [message])).length < BUFFER_SIZE) :
    ArrivesIntact earlier (sendPacket message) message := by
  have hparse := parseStream_written hshort
  have hgood : (parseStream (written (earlier ++ [message]))).bad = false := by
    rw [hparse]
  constructor
  · intro events c hreach hlate hopen hinitial hmore
    rw [written_append_sendPacket] at hinitial hmore
    rcases hreach with ⟨s, socket, index, id, handler, hrun⟩
    have hframed := framed_run hrun
    have hgood' := (Framing.parse_of_prefix hinitial hgood).left
    have hfew : (received events).length ≠ BUFFER_SIZE - 1 := by
      intro hfull
      apply hmore
      apply hinitial.eq_of_length
      have hle := hinitial.length_le
      omega
    exact ((hframed.hears_iff hgood' hlate hopen).mpr hfew hopen).left
  · intro events c hreach hstream
    rw [written_append_sendPacket] at hstream
    rcases hreach with ⟨s, socket, index, id, handler, hrun⟩
    have hpushed := (framed_run hrun).pushed
    rw [hstream, hparse, List.map_append, List.map_append] at hpushed
    refine ⟨_, _, hpushed, ?_, List.prefix_refl message⟩
    rw [List.length_map, List.length_map]
  · intro events c hreach hinitial
    rw [written_append_sendPacket] at hinitial
    rcases hreach with ⟨s, socket, index, id, handler, hrun⟩
    have hpushed := congrArg List.length (framed_run hrun).pushed
    rw [List.length_map, List.length_map] at hpushed
    have hframes := (Framing.parse_of_prefix hinitial hgood).right.length_le
    have hcount : (parseStream (written (earlier ++ [message]))).frames.length =
        earlier.length + 1 := by
      rw [hparse, List.length_map, List.length_append, List.length_singleton]
    rw [hpushed, ← hcount]
    exact hframes
  · intro events c hreach buf bytes junk hbuf hlen hinitial
    rw [written_append_sendPacket] at hinitial
    rcases hreach with ⟨s, socket, index, id, handler, hrun⟩
    have hcloses := ((framed_run hrun).closes_iff hbuf hlen junk).left
    have hgood' : (parseStream (received events ++ bytes)).bad = false :=
      (Framing.parse_of_prefix hinitial hgood).left
    rw [hgood'] at hcloses
    apply Nat.eq_zero_of_not_pos
    intro hpos
    cases hcloses.mp hpos

/-!
# Only these lines
-/

theorem reaches_listeningStart : Reaches [.postRecv .started] listeningStart :=
  ⟨_, _, _, _, _, (runFrom_cons_of_step [] listeningStart_eq).trans rfl⟩

theorem mem_recvs_listeningStart : (⟨0, 4095⟩ : WsaBuf) ∈ listeningStart.recvs :=
  List.mem_singleton.mpr rfl

/-- The first 4095 bytes of what arrives intact are no reason to close. -/
theorem ArrivesIntact.good_take {earlier : List (List UInt8)}
    {packet message : List UInt8} (h : ArrivesIntact earlier packet message) :
    (parseStream ((written earlier ++ packet).take 4095)).bad = false := by
  have hlen : ((written earlier ++ packet).take 4095).length ≤ 4095 :=
    List.length_take_le 4095 _
  have hrun : runFrom Conn.step (Conn.first 65543) [.postRecv .started] =
      some listeningStart := (runFrom_cons_of_step [] listeningStart_eq).trans rfl
  have hcloses := ((framed_run hrun).closes_iff mem_recvs_listeningStart hlen
    (fun _ => makePacket 0 [])).left
  have hzero := h.opened reaches_listeningStart ⟨0, 4095⟩ _
    (fun _ => makePacket 0 []) mem_recvs_listeningStart hlen
    (List.take_prefix 4095 _)
  by_contra hbad
  have hpos := hcloses.mpr (Bool.not_eq_false _ ▸ hbad)
  omega

/-- After byte 4095 the session is deaf, so all bytes lie before it. -/
theorem ArrivesIntact.room {earlier : List (List UInt8)}
    {packet message : List UInt8} (h : ArrivesIntact earlier packet message) :
    (written earlier ++ packet).length < BUFFER_SIZE := by
  have hcells : BUFFER_SIZE = 4096 := rfl
  by_contra hlong
  have hlen : ((written earlier ++ packet).take 4095).length = 4095 := by
    rw [List.length_take]
    omega
  let chunk : Chunk :=
    ⟨(written earlier ++ packet).take 4095, fun _ => makePacket 0 []⟩
  have hbytes : chunk.bytes ≠ [] :=
    List.ne_nil_of_length_pos (Nat.lt_of_lt_of_eq (by decide) hlen.symm)
  have hstep : exists c, listeningStart.step chunk.event = some c := by
    have hrecvs : listeningStart.recvs = [⟨0, 4095⟩] := rfl
    simp only [Chunk.event, Conn.step, hrecvs]
    rw [if_pos (Nat.le_of_eq hlen)]
    exact ⟨_, rfl⟩
  rcases hstep with ⟨c, hstep⟩
  have hrun : runFrom Conn.step (Conn.first 65543)
      [.postRecv .started, chunk.event] = some c := by
    rw [runFrom_cons_of_step _ listeningStart_eq, runFrom_cons_of_step _ hstep]
    rfl
  have hreceived : received [.postRecv .started, chunk.event] =
      (written earlier ++ packet).take 4095 := by
    simp [received, receivedBy, Chunk.event, chunk]
  have hframed := framed_run hrun
  rw [hreceived] at hframed
  have hstart := framed_step (framed_fresh _ _ _ _ _) listeningStart_eq
  rcases @Framed.chunk_open _ _ _ _ chunk hstart h.good_take hbytes rfl rfl hstep with
    ⟨hopen, hlate⟩
  rcases h.fed ⟨_, _, _, _, _, hrun⟩ hlate hopen
      (by rw [hreceived]; exact List.take_prefix 4095 _)
      (by
        rw [hreceived]
        intro hall
        rw [hall] at hlen
        omega) with ⟨buf, hbuf, hpos⟩
  have htail := c.session.recvBuffer.tail_add_getLinearEmptySize_lt
  rw [(hframed.posted buf hbuf).left] at hpos
  replace hpos : 0 < c.session.recvBuffer.getLinearEmptySize := hpos
  have hfull : c.session.recvBuffer.getTail = 4095 := hframed.tail.trans hlen
  omega

theorem ArrivesIntact.short {earlier : List (List UInt8)} {message : List UInt8}
    (h : ArrivesIntact earlier (sendPacket message) message) :
    forall line, line ∈ earlier ++ [message] -> line.length ≤ 256 := by
  have hroom := h.room
  have hgood := h.good_take
  rw [List.take_of_length_le (Nat.le_of_lt_succ hroom),
    written_append_sendPacket] at hgood
  rw [written_append_sendPacket] at hroom
  exact short_of_good (Nat.lt_trans hroom (by decide)) hgood

/-!
# Longer lines
-/

/-- The header of a line of any length: the size wraps around. -/
theorem header_take_sendPacket (message : List UInt8) {n : Nat}
    (hlow : HEADER_SIZE ≤ n) (hhigh : n ≤ HEADER_SIZE + message.length) :
    PacketHeader.ofBytes ((sendPacket message).take n) =
      ⟨UInt16.ofNat (HEADER_SIZE + message.length), 0⟩ := by
  rw [ofBytes_header_take _ hlow (by rw [length_sendPacket]; exact hhigh)]
  show PacketHeader.ofBytes (PacketHeader.toBytes
    ⟨UInt16.ofNat (HEADER_SIZE + message.length), 0⟩ ++ message) = _
  exact ofBytes_toBytes_header _ message

theorem nextFrame_take_sendPacket (message : List UInt8) {n : Nat}
    (hlow : HEADER_SIZE ≤ n) (hhigh : n ≤ HEADER_SIZE + message.length) :
    nextFrame ((sendPacket message).take n) =
      if (HEADER_SIZE + message.length) % 65536 < HEADER_SIZE ∨
          (HEADER_SIZE + message.length) % 65536 > PACKET_SIZE then .bad
      else if n < (HEADER_SIZE + message.length) % 65536 then .more
      else .frame ((HEADER_SIZE + message.length) % 65536)
        ⟨0, (((sendPacket message).take n).drop HEADER_SIZE).take
          ((HEADER_SIZE + message.length) % 65536 - HEADER_SIZE)⟩ := by
  have hlen : ((sendPacket message).take n).length = n := by
    rw [List.length_take, length_sendPacket]
    omega
  have hsize : (UInt16.ofNat (HEADER_SIZE + message.length)).toNat =
      (HEADER_SIZE + message.length) % 65536 := UInt16.toNat_ofNat'
  rw [nextFrame_eq_header (by rw [hlen]; exact hlow),
    header_take_sendPacket message hlow hhigh, hsize, hlen]

/-- 260 bytes that are not rejected hold at least one frame. -/
theorem frames_ne_nil_of_long {b : List UInt8} (hlen : 260 ≤ b.length)
    (hgood : (parseStream b).bad = false) : (parseStream b).frames ≠ [] := by
  intro hnil
  have hrest := length_rest_lt hgood
  unfold parseStream at hnil hgood hrest
  cases hnext : packetFraming.next b with
  | more =>
      rw [Framing.parse_of_more hnext] at hrest
      exact absurd hrest (Nat.not_lt.mpr hlen)
  | bad =>
      rw [Framing.parse_of_bad hnext] at hgood
      cases hgood
  | frame size f =>
      rw [Framing.parse_of_frame hnext] at hnil
      cases hnil

/-- A longer line is rejected at once, or a second packet is found in it. -/
theorem breaks_of_long {message : List UInt8} (h : 256 < message.length) :
    exists n, n ≤ 520 ∧
      ((parseStream ((sendPacket message).take n)).bad = true ∨
        1 < (parseStream ((sendPacket message).take n)).frames.length) := by
  have hsizes := sizes_eq
  by_cases hbad : (HEADER_SIZE + message.length) % 65536 < HEADER_SIZE ∨
      (HEADER_SIZE + message.length) % 65536 > PACKET_SIZE
  · have hnext := nextFrame_take_sendPacket message (Nat.le_refl HEADER_SIZE)
      (Nat.le_add_right _ _)
    rw [if_pos hbad] at hnext
    replace hnext : packetFraming.next ((sendPacket message).take HEADER_SIZE) =
      .bad := hnext
    refine ⟨HEADER_SIZE, by omega, Or.inl ?_⟩
    exact congrArg Parsed.bad (Framing.parse_of_bad hnext)
  · -- the size wrapped around, so at least 65536 bytes follow the first packet
    have hmod := Nat.mod_add_div (HEADER_SIZE + message.length) 65536
    have hlow : HEADER_SIZE ≤ (HEADER_SIZE + message.length) % 65536 + 260 := by
      omega
    have hhigh : (HEADER_SIZE + message.length) % 65536 + 260 ≤
        HEADER_SIZE + message.length := by
      omega
    have hnext := nextFrame_take_sendPacket message hlow hhigh
    rw [if_neg hbad, if_neg (by omega)] at hnext
    replace hnext : packetFraming.next ((sendPacket message).take
      ((HEADER_SIZE + message.length) % 65536 + 260)) = .frame _ _ := hnext
    have hlong : 260 ≤ (((sendPacket message).take
        ((HEADER_SIZE + message.length) % 65536 + 260)).drop
          ((HEADER_SIZE + message.length) % 65536)).length := by
      rw [List.length_drop, List.length_take, length_sendPacket]
      omega
    refine ⟨(HEADER_SIZE + message.length) % 65536 + 260, by omega, ?_⟩
    unfold parseStream
    rw [Framing.parse_of_frame hnext]
    cases hgood : (packetFraming.parse (((sendPacket message).take
        ((HEADER_SIZE + message.length) % 65536 + 260)).drop
          ((HEADER_SIZE + message.length) % 65536))).bad with
    | true => exact Or.inl rfl
    | false =>
        have hframes := List.length_pos_iff.mpr (frames_ne_nil_of_long hlong hgood)
        exact Or.inr (Nat.succ_lt_succ hframes)

/--
A line reaches the server intact exactly if it and all earlier lines have at most
256 bytes and the session does not receive more than 4095 bytes with them.  Where
the line is too long, one of its first 520 bytes already ends the session or
begins a further packet.
-/
theorem entered_line_intact_iff {ui after : ChatInput} {packet : List UInt8}
    (h : ui.handleEnter = (after, some packet)) (earlier : List (List UInt8)) :
    (ArrivesIntact earlier packet ui.message <->
      (forall line, line ∈ earlier ++ [ui.message] -> line.length ≤ 256) ∧
        (written (earlier ++ [ui.message])).length < BUFFER_SIZE) ∧
    (256 < ui.message.length -> exists n, n ≤ 520 ∧
      ((parseStream (packet.take n)).bad = true ∨
        1 < (parseStream (packet.take n)).frames.length)) := by
  rw [(ChatInput.handleEnter_eq_some h).right]
  refine ⟨?_, breaks_of_long⟩
  constructor
  · intro hintact
    refine ⟨hintact.short, ?_⟩
    rw [← written_append_sendPacket]
    exact hintact.room
  · intro hfits
    exact arrivesIntact_of_fits hfits.left hfits.right

/-- A line of letters. -/
def letters (n : Nat) : ChatInput where
  input := List.replicate n 'a'
  showCommandPopup := false
  selectedCommand := 0

theorem message_letters (n : Nat) :
    (letters n).message = List.replicate n 97 := by
  unfold ChatInput.message letters
  induction n with
  | zero => rfl
  | succ n ih =>
      rw [List.replicate_succ, List.flatMap_cons, ih]
      rfl

theorem handleEnter_letters {n : Nat} (h : 0 < n) :
    (letters n).handleEnter =
      (⟨[], false, 0⟩, some (sendPacket (letters n).message)) := by
  unfold ChatInput.handleEnter
  rw [if_neg, if_neg (fun hpopup => Bool.noConfusion hpopup.left)]
  intro hnil
  have hlen := congrArg List.length hnil
  rw [letters, List.length_replicate] at hlen
  exact Nat.ne_of_gt h hlen

/--
The second line of a connection arrives, and so does the fortieth line of 96
letters; the one after it does not.
-/
theorem entered_line_intact_letters :
    ArrivesIntact [text "/n ann"] (sendPacket (letters 5).message)
      (letters 5).message ∧
    ArrivesIntact (List.replicate 39 (letters 96).message)
      (sendPacket (letters 96).message) (letters 96).message ∧
    ¬ ArrivesIntact (List.replicate 40 (letters 96).message)
      (sendPacket (letters 96).message) (letters 96).message := by
  have hfive := entered_line_intact_iff (handleEnter_letters (n := 5) (by decide))
    [text "/n ann"]
  have hforty := entered_line_intact_iff (handleEnter_letters (n := 96) (by decide))
    (List.replicate 39 (letters 96).message)
  have hlast := entered_line_intact_iff (handleEnter_letters (n := 96) (by decide))
    (List.replicate 40 (letters 96).message)
  refine ⟨hfive.left.mpr ?_, hforty.left.mpr ?_, fun hintact => ?_⟩
  · rw [message_letters]
    decide +kernel
  · rw [message_letters]
    decide +kernel
  · have hfits := (hlast.left.mp hintact).right
    rw [message_letters] at hfits
    revert hfits
    decide +kernel

/-- A line of 257 letters does not even arrive as the first one. -/
theorem long_line_not_intact :
    (letters 257).handleEnter =
      (⟨[], false, 0⟩, some (sendPacket (letters 257).message)) ∧
    ¬ ArrivesIntact [] (sendPacket (letters 257).message)
      (letters 257).message := by
  refine ⟨handleEnter_letters (by decide), fun hintact => ?_⟩
  have hshort := hintact.short (letters 257).message List.mem_cons_self
  rw [message_letters, List.length_replicate] at hshort
  exact absurd hshort (by decide)

end Clients
end ContentServer
