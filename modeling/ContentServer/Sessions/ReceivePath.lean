import ContentServer.Sessions.Connection

/-!
# The receive path

Along every run of a connection the receive buffer holds exactly what the
reference parse of all received bytes leaves over, and the pushed messages are
exactly the frames of that parse.  The posted receive always covers the free
cells behind the tail, up to the end of the array at most, so that the tail never
comes round: a connection receives at most 4095 bytes.
-/

namespace ContentServer
namespace Sessions

open Buffers Foundation Protocol

/-- The bytes that one event adds to the received stream. -/
def receivedBy : Conn.Event -> List UInt8
  | .recvCompletion true bytes _ _ => bytes
  | _ => []

/-- The stream that a run has received. -/
def received (events : List Conn.Event) : List UInt8 :=
  events.flatMap receivedBy

theorem received_append (a b : List Conn.Event) :
    received (a ++ b) = received a ++ received b :=
  List.flatMap_append

theorem received_snoc (events : List Conn.Event) (e : Conn.Event) :
    received (events ++ [e]) = received events ++ receivedBy e := by
  rw [received_append]
  simp [received]

/-- The receive side of a connection against the received stream. -/
structure Framed (owner : Session) (stream : List UInt8) (c : Conn) : Prop where
  sameOwner : SameOwner owner c.session
  contents : c.session.recvBuffer.contents = (parseStream stream).rest
  tail : c.session.recvBuffer.tail = stream.length
  pushed : (pushes c.calls).map delivery =
    (parseStream stream).frames.map (deliveryOf owner.id)
  posted : forall buf, buf ∈ c.recvs ->
    buf = ⟨c.session.recvBuffer.getTail,
      c.session.recvBuffer.getLinearEmptySize⟩ ∧ 0 < buf.len
  single : c.recvs.length ≤ 1
  early : c.accepting = true -> c.recvs = []
  stopped : (parseStream stream).bad = true ->
    c.session.closing = true ∧ c.recvs = [] ∧ c.accepting = false
  deaf : c.accepting = false -> c.session.closing = false -> c.recvs = [] ->
    c.session.recvBuffer.getLinearEmptySize = 0

/-- A step that leaves the receive side alone, or ends it by closing. -/
theorem Framed.quiet {owner : Session} {stream : List UInt8} {c d : Conn}
    (h : Framed owner stream c)
    (howner : SameOwner c.session d.session)
    (hcontents : d.session.recvBuffer.contents = c.session.recvBuffer.contents)
    (hhead : d.session.recvBuffer.head = c.session.recvBuffer.head)
    (htail : d.session.recvBuffer.tail = c.session.recvBuffer.tail)
    (hpushes : pushes d.calls = pushes c.calls)
    (hclosing : c.session.closing = true -> d.session.closing = true)
    (hrecvs : d.recvs = c.recvs ∨ (d.recvs = [] ∧ d.session.closing = true))
    (haccepting : d.accepting = c.accepting) :
    Framed owner stream d := by
  have hsize : d.session.recvBuffer.getLinearEmptySize =
      c.session.recvBuffer.getLinearEmptySize := by
    simp only [RingBuffer.getLinearEmptySize, hhead, htail]
  have hgetTail : d.session.recvBuffer.getTail = c.session.recvBuffer.getTail :=
    htail
  exact {
    sameOwner := h.sameOwner.trans howner
    contents := hcontents.trans h.contents
    tail := htail.trans h.tail
    pushed := by rw [hpushes]; exact h.pushed
    posted := fun buf hbuf => by
      rcases hrecvs with hsame | ⟨hnil, _⟩
      · rw [hsame] at hbuf
        rw [hgetTail, hsize]
        exact h.posted buf hbuf
      · rw [hnil] at hbuf
        cases hbuf
    single := by
      rcases hrecvs with hsame | ⟨hnil, _⟩
      · rw [hsame]
        exact h.single
      · rw [hnil]
        exact Nat.zero_le 1
    early := fun hacc => by
      rcases hrecvs with hsame | ⟨hnil, _⟩
      · rw [hsame]
        exact h.early (by rw [← haccepting]; exact hacc)
      · exact hnil
    stopped := fun hbad => by
      rcases h.stopped hbad with ⟨hclosed, hnone, hacc⟩
      refine ⟨hclosing hclosed, ?_, by rw [haccepting]; exact hacc⟩
      rcases hrecvs with hsame | ⟨hnil, _⟩
      · rw [hsame]
        exact hnone
      · exact hnil
    deaf := fun hacc hopen hnone => by
      rcases hrecvs with hsame | ⟨_, hclosed⟩
      · rw [hsize]
        apply h.deaf (by rw [← haccepting]; exact hacc)
        · cases hc : c.session.closing with
          | false => rfl
          | true =>
              rw [hclosing hc] at hopen
              cases hopen
        · rw [← hsame]
          exact hnone
      · rw [hclosed] at hopen
        cases hopen }

/-- Steps on the sending side leave the receive side alone. -/
theorem Framed.sendCall {owner : Session} {stream : List UInt8} {c d : Conn}
    {o : Outcome} (h : Framed owner stream c) (ho : SendCall c.session o)
    (hrecvs : d.recvs = c.recvs)
    (hcalls : d.calls = c.calls) (haccepting : d.accepting = c.accepting) :
    Framed owner stream (d.after o) := by
  apply h.quiet (d := d.after o)
  · exact ho.owner
  · exact congrArg RingBuffer.contents ho.recvBuffer
  · exact congrArg RingBuffer.head ho.recvBuffer
  · exact congrArg RingBuffer.tail ho.recvBuffer
  · show pushes (d.calls ++ o.calls) = _
    rw [pushes_append, ho.messages, hcalls, List.append_nil]
  · exact ho.toTallies.closing_mono
  · left
    show d.recvs ++ startedRecvs o.calls = _
    rw [ho.recvs, hrecvs, List.append_nil]
  · exact haccepting

/-- `PostRecv` leaves the ring alone, and posts its free cells or has a reason. -/
theorem postRecv_ring (s : Session) (result : PostResult) :
    (s.postRecv result).session.recvBuffer = s.recvBuffer ∧
      pushes (s.postRecv result).calls = [] ∧
      (forall buf, buf ∈ startedRecvs (s.postRecv result).calls ->
        buf = ⟨s.recvBuffer.getTail, s.recvBuffer.getLinearEmptySize⟩ ∧
          0 < buf.len) ∧
      ((s.postRecv result).session.closing = false ->
        startedRecvs (s.postRecv result).calls = [] ->
        s.recvBuffer.getLinearEmptySize = 0) := by
  rcases postRecv_cases s result with
    ⟨heq, hwhy⟩ | ⟨buf, _, _, hbuf, hpos, heq⟩ | ⟨buf, _, _, heq⟩
  · rw [heq]
    refine ⟨rfl, rfl, fun _ hmem => (by cases hmem), fun hopen _ => ?_⟩
    rcases hwhy with hclosed | hfull
    · replace hopen : s.closing = false := hopen
      rw [hclosed] at hopen
      cases hopen
    · exact hfull
  · rw [heq]
    refine ⟨rfl, rfl, fun posted hmem => ?_, fun _ hnone => (by cases hnone)⟩
    rcases List.mem_singleton.mp hmem with rfl
    exact ⟨hbuf, hpos⟩
  · rw [heq]
    exact ⟨rfl, rfl, fun _ hmem => (by cases hmem),
      fun hopen _ => (by cases hopen)⟩

/-- `PostRecv` when nothing is posted: it posts the free cells, or is deaf. -/
theorem Framed.postRecv {owner : Session} {stream : List UInt8}
    {s : Session} {d : Conn} (result : PostResult)
    (howner : SameOwner owner s)
    (hcontents : s.recvBuffer.contents = (parseStream stream).rest)
    (htail : s.recvBuffer.tail = stream.length)
    (hpushed : (pushes d.calls).map delivery =
      (parseStream stream).frames.map (deliveryOf owner.id))
    (hbad : (parseStream stream).bad = true -> s.closing = true)
    (hrecvs : d.recvs = []) (haccepting : d.accepting = false) :
    Framed owner stream (d.after (s.postRecv result)) := by
  have hcall := postRecv_recvCall s result
  rcases postRecv_ring s result with ⟨hring, hnoise, hposted, hdeaf⟩
  have hstarted : (d.after (s.postRecv result)).recvs =
      startedRecvs (s.postRecv result).calls := by
    show d.recvs ++ _ = _
    rw [hrecvs, List.nil_append]
  exact {
    sameOwner := howner.trans hcall.owner
    contents := (congrArg RingBuffer.contents hring).trans hcontents
    tail := (congrArg RingBuffer.tail hring).trans htail
    pushed := by
      show (pushes (d.calls ++ _)).map delivery = _
      rw [pushes_append, hnoise, List.append_nil]
      exact hpushed
    posted := fun buf hbuf => by
      rw [hstarted] at hbuf
      show buf = ⟨(s.postRecv result).session.recvBuffer.getTail,
        (s.postRecv result).session.recvBuffer.getLinearEmptySize⟩ ∧ _
      rw [hring]
      exact hposted buf hbuf
    single := by
      rw [hstarted]
      exact hcall.recvs
    early := fun hacc => by
      rw [show (d.after _).accepting = d.accepting from rfl, haccepting] at hacc
      cases hacc
    stopped := fun hrejected => by
      have hclosed := hbad hrejected
      refine ⟨hcall.toTallies.closing_mono hclosed, ?_, haccepting⟩
      rw [hstarted]
      exact (hcall.noPost hclosed).left
    deaf := fun _ hopen hnone => by
      rw [hstarted] at hnone
      show (s.postRecv result).session.recvBuffer.getLinearEmptySize = 0
      rw [hring]
      exact hdeaf hopen hnone }

/-!
# Steps and runs
-/

theorem framed_fresh (s : Session) (socket : Nat) (index : Slot) (id : Nat)
    (handler : Nat) :
    Framed (s.init socket index id handler) []
      (Conn.fresh s socket index id handler) := by
  have hparse : parseStream [] = ⟨[], [], false⟩ :=
    Framing.parse_of_more (F := packetFraming) rfl
  exact {
    sameOwner := SameOwner.refl _
    contents := by
      rw [hparse]
      exact s.recvBuffer.contents_clear
    tail := rfl
    pushed := by
      rw [hparse]
      rfl
    posted := fun _ hbuf => by cases hbuf
    single := Nat.zero_le 1
    early := fun _ => rfl
    stopped := fun hbad => by
      rw [hparse] at hbad
      cases hbad
    deaf := fun hacc => by cases hacc }

/-- Calls that start nothing can be recorded before the others. -/
theorem Conn.after_append (d : Conn) (t : Session) {a : List IoCall}
    (b : List IoCall) (hrecvs : startedRecvs a = [])
    (hsends : startedSends a = []) :
    d.after ⟨t, a ++ b⟩ = { d with calls := d.calls ++ a }.after ⟨t, b⟩ := by
  simp only [Conn.after, startedRecvs_append, startedSends_append, hrecvs,
    hsends, List.nil_append, List.append_assoc]

/-- An outstanding receive means that nothing was rejected yet. -/
theorem Framed.good {owner : Session} {stream : List UInt8} {c : Conn}
    {buf : WsaBuf} (h : Framed owner stream c) (hbuf : buf ∈ c.recvs) :
    (parseStream stream).bad = false := by
  cases hbad : (parseStream stream).bad with
  | false => rfl
  | true =>
      rw [(h.stopped hbad).right.left] at hbuf
      cases hbuf

/-- A posted receive ends before the end of the array. -/
theorem Framed.lt_of_posted {owner : Session} {stream bytes : List UInt8}
    {c : Conn} {buf : WsaBuf} (h : Framed owner stream c) (hbuf : buf ∈ c.recvs)
    (hlen : bytes.length ≤ buf.len) :
    c.session.recvBuffer.tail + bytes.length < BUFFER_SIZE := by
  rw [(h.posted buf hbuf).left] at hlen
  exact Nat.lt_of_le_of_lt (Nat.add_le_add_left hlen _)
    c.session.recvBuffer.tail_add_getLinearEmptySize_lt

/-- The array has room for all bytes ever received. -/
theorem Framed.length_lt {owner : Session} {stream : List UInt8} {c : Conn}
    (h : Framed owner stream c) : stream.length < BUFFER_SIZE := by
  rw [← h.tail]
  exact c.session.recvBuffer.tail_lt

/-- The buffered bytes after new bytes were placed and published. -/
theorem Framed.contents_receive {owner : Session} {stream bytes : List UInt8}
    {c : Conn} {buf : WsaBuf} (h : Framed owner stream c) (hbuf : buf ∈ c.recvs)
    (hlen : bytes.length ≤ buf.len) :
    ((c.receive buf bytes).recvBuffer.moveTail bytes.length).contents =
      (parseStream stream).rest ++ bytes := by
  have hregion := (h.posted buf hbuf).left
  have hroom : bytes.length ≤ c.session.recvBuffer.getLinearEmptySize := by
    rw [hregion] at hlen
    exact hlen
  rw [← h.contents, hregion]
  exact c.session.recvBuffer.contents_fill_moveTail hroom

/-- Rejecting the buffered bytes is rejecting the whole stream. -/
theorem Framed.bad_receive {owner : Session} {stream bytes : List UInt8}
    {c : Conn} {buf : WsaBuf} (h : Framed owner stream c) (hbuf : buf ∈ c.recvs)
    (hlen : bytes.length ≤ buf.len) :
    (parseStream
      ((c.receive buf bytes).recvBuffer.moveTail bytes.length).contents).bad =
        (parseStream (stream ++ bytes)).bad := by
  have hparse : parseStream (stream ++ bytes) = _ :=
    Framing.parse_append (F := packetFraming) bytes (h.good hbuf)
  rw [h.contents_receive hbuf hlen, hparse]
  rfl

/-- The loop and all of `OnRecv` close exactly at bytes that the parse rejects. -/
theorem Framed.closes_iff {owner : Session} {stream bytes : List UInt8} {c : Conn}
    {buf : WsaBuf} (h : Framed owner stream c) (hbuf : buf ∈ c.recvs)
    (hlen : bytes.length ≤ buf.len) (junk : Nat -> Packet) :
    (0 < closeCount ({ c.receive buf bytes with
        recvBuffer := (c.receive buf bytes).recvBuffer.moveTail bytes.length
      }.onRecvLoop junk).calls <-> (parseStream (stream ++ bytes)).bad = true) ∧
    (0 < closeCount ((c.receive buf bytes).onRecv bytes.length junk
      .started).calls <-> (parseStream (stream ++ bytes)).bad = true) := by
  rw [closeCount_onRecvLoop, closeCount_onRecv_started, h.bad_receive hbuf hlen]
  cases (parseStream (stream ++ bytes)).bad <;> simp

/-- A receive completion feeds its bytes to the parse. -/
theorem Framed.onRecv {owner : Session} {stream bytes : List UInt8} {c d : Conn}
    {buf : WsaBuf} (h : Framed owner stream c) (hbuf : buf ∈ c.recvs)
    (hlen : bytes.length ≤ buf.len) (junk : Nat -> Packet)
    (result : PostResult) (hrecvs : d.recvs = []) (hcalls : d.calls = c.calls)
    (haccepting : d.accepting = c.accepting) :
    Framed owner (stream ++ bytes)
      (d.after ((c.receive buf bytes).onRecv bytes.length junk result)) := by
  have hlate : d.accepting = false := by
    cases hacc : d.accepting with
    | false => rfl
    | true =>
        rw [h.early (by rw [← haccepting]; exact hacc)] at hbuf
        cases hbuf
  have hgood := h.good hbuf
  have hfill := h.contents_receive hbuf hlen
  have hparse : parseStream (stream ++ bytes) = _ :=
    Framing.parse_append (F := packetFraming) bytes hgood
  rcases onRecv_eq (c.receive buf bytes) bytes.length junk result with
    ⟨msgs, ring, looped, hlooped, heq, hmsgs, hring, htail⟩
  rw [hfill] at hlooped heq hmsgs hring
  rw [heq, Conn.after_append]
  · apply Framed.postRecv (s := looped) result
    · rw [hlooped]
      exact ⟨h.sameOwner.socket, h.sameOwner.index, h.sameOwner.id,
        h.sameOwner.handler, h.sameOwner.userId, h.sameOwner.name,
        h.sameOwner.friendIds⟩
    · rw [hlooped, hparse]
      exact hring
    · rw [hlooped]
      show ring.tail = _
      rw [htail]
      show (c.session.recvBuffer.tail + bytes.length) % BUFFER_SIZE = _
      rw [Nat.mod_eq_of_lt (h.lt_of_posted hbuf hlen), h.tail, List.length_append]
    · rw [hcalls, hparse, pushes_append, pushes_append, pushes_map_push]
      have hid : (c.receive buf bytes).id = owner.id := h.sameOwner.id
      rw [hid] at hmsgs
      have hnoise : pushes (if (parseStream ((parseStream stream).rest ++ bytes)).bad
          then [IoCall.closesocket (c.receive buf bytes).socket] else []) = [] := by
        split <;> rfl
      rw [hnoise, List.append_nil, List.map_append, List.map_append, h.pushed,
        hmsgs]
      rfl
    · intro hbad
      rw [hlooped]
      rw [hparse] at hbad
      show (_ || (parseStream ((parseStream stream).rest ++ bytes)).bad) = true
      rw [show (parseStream ((parseStream stream).rest ++ bytes)).bad = true from hbad]
      exact Bool.or_true _
    · exact hrecvs
    · exact hlate
  · rw [startedRecvs_append, startedRecvs_map_push]
    split <;> rfl
  · rw [startedSends_append, startedSends_map_push]
    split <;> rfl

/-- A failed or empty completion only closes. -/
theorem Framed.closed {owner : Session} {stream bytes : List UInt8} {c d : Conn}
    {buf : WsaBuf} (h : Framed owner stream c) (hbuf : buf ∈ c.recvs)
    (hlen : bytes.length ≤ buf.len) (hrecvs : d.recvs = [])
    (hcalls : d.calls = c.calls) (haccepting : d.accepting = c.accepting) :
    Framed owner stream (d.after (c.receive buf bytes).close) := by
  have hfree : c.session.recvBuffer.FreeCells buf.buf bytes.length := by
    rw [(h.posted buf hbuf).left] at hlen ⊢
    exact c.session.recvBuffer.freeCells_tail
      (Nat.le_trans hlen c.session.recvBuffer.getLinearEmptySize_le)
  apply h.quiet
  · exact ⟨rfl, rfl, rfl, rfl, rfl, rfl, rfl⟩
  · exact c.session.recvBuffer.contents_fill hfree
  · rfl
  · rfl
  · show pushes (d.calls ++ _) = _
    rw [pushes_append, hcalls]
    simp [Session.close, pushes]
  · exact fun _ => rfl
  · refine Or.inr ⟨?_, rfl⟩
    show d.recvs ++ _ = []
    rw [hrecvs]
    rfl
  · exact haccepting

theorem framed_step {owner : Session} {stream : List UInt8} {c d : Conn}
    {e : Conn.Event} (h : Framed owner stream c) (hstep : c.step e = some d) :
    Framed owner (stream ++ receivedBy e) d := by
  rcases Conn.step_cases hstep with
    ⟨result, rfl, hacc, rfl⟩ |
    ⟨ok, bytes, junk, result, buf, rest, rfl, hrecvs, hlen, rfl⟩ |
    ⟨ok, bytes, result, buf, rest, rfl, hsends, hlen, rfl⟩ |
    ⟨data, result, rfl, rfl⟩ | ⟨rfl, hpos, rfl⟩
  · -- the first receive of an accepted connection
    rw [show receivedBy (.postRecv result) = [] from rfl, List.append_nil]
    exact Framed.postRecv (d := { c with accepting := false }) result
      h.sameOwner h.contents h.tail h.pushed
      (fun hbad => (h.stopped hbad).left) (h.early hacc) rfl
  · have hrest : rest = [] := by
      have hsingle := h.single
      rw [hrecvs, List.length_cons] at hsingle
      exact List.length_eq_zero_iff.mp (by omega)
    subst hrest
    have hbuf : buf ∈ c.recvs := by
      rw [hrecvs]
      exact List.mem_cons_self
    by_cases hfeed : ok = true ∧ bytes ≠ []
    · rcases hfeed with ⟨rfl, hne⟩
      have honRecv : (c.receive buf bytes).handleCompletion true .recv
          bytes.length junk result =
          (c.receive buf bytes).onRecv bytes.length junk result := by
        simp [Session.handleCompletion, hne]
      rw [honRecv]
      exact h.onRecv hbuf hlen junk result rfl rfl rfl
    · have hends : (c.receive buf bytes).handleCompletion ok .recv
          bytes.length junk result = (c.receive buf bytes).close ∧
          receivedBy (.recvCompletion ok bytes junk result) = [] := by
        cases ok with
        | false => exact ⟨rfl, rfl⟩
        | true =>
            have hnil : bytes = [] := by
              by_contra hne
              exact hfeed ⟨rfl, hne⟩
            subst hnil
            exact ⟨by simp [Session.handleCompletion], rfl⟩
      rw [hends.left, hends.right, List.append_nil]
      exact h.closed hbuf hlen rfl rfl rfl
  · rw [show receivedBy (.sendCompletion ok bytes result) = [] from rfl,
      List.append_nil]
    exact h.sendCall (handleCompletion_send_sendCall c.session ok bytes _ result)
      rfl rfl rfl
  · rw [show receivedBy (.send data result) = [] from rfl, List.append_nil]
    exact h.sendCall (send_sendCall c.session data result) rfl rfl rfl
  · rw [show receivedBy .completeIo = [] from rfl, List.append_nil]
    exact h.quiet ⟨rfl, rfl, rfl, rfl, rfl, rfl, rfl⟩ rfl rfl rfl rfl
      (fun hc => hc) (Or.inl rfl) rfl

/-- The receive side of a connection after any run from `Init`. -/
theorem framed_run {s : Session} {socket : Nat} {index : Slot} {id : Nat}
    {handler : Nat} {events : List Conn.Event} {c : Conn}
    (hrun : runFrom Conn.step (Conn.fresh s socket index id handler) events =
      some c) :
    Framed (s.init socket index id handler) (received events) c := by
  refine run_history (I := fun pre d =>
    Framed (s.init socket index id handler) (received pre) d)
    (framed_fresh s socket index id handler) ?_ hrun
  intro pre e u v hu hstep
  rw [received_snoc]
  exact framed_step hu hstep

/-- No session receives more bytes than its buffer has cells to hold. -/
theorem length_received_lt {s : Session} {socket : Nat} {index : Slot}
    {id handler : Nat} {events : List Conn.Event} {c : Conn}
    (hrun : runFrom Conn.step (Conn.fresh s socket index id handler) events =
      some c) :
    (received events).length < BUFFER_SIZE :=
  (framed_run hrun).length_lt

/-!
# The receiver equals the reference parse
-/

/-- Without an outstanding receive nothing is pushed or posted any more. -/
theorem recvs_nil_run {c d : Conn} {later : List Conn.Event}
    (hrecvs : c.recvs = []) (haccepting : c.accepting = false)
    (hrun : runFrom Conn.step c later = some d) :
    pushes d.calls = pushes c.calls ∧
      startedRecvs d.calls = startedRecvs c.calls ∧ d.recvs = [] := by
  have hpreserved : Preserved Conn.step (fun u : Conn =>
      u.recvs = [] ∧ u.accepting = false ∧ pushes u.calls = pushes c.calls ∧
        startedRecvs u.calls = startedRecvs c.calls) := by
    intro u e v hu hstep
    rcases hu with ⟨hnone, hlate, hpushes, hstarted⟩
    rcases Conn.step_cases hstep with
      ⟨result, rfl, hacc, rfl⟩ |
      ⟨ok, bytes, junk, result, buf, rest, rfl, hbuf, _, rfl⟩ |
      ⟨ok, bytes, result, buf, rest, rfl, _, _, rfl⟩ |
      ⟨data, result, rfl, rfl⟩ | ⟨rfl, _, rfl⟩
    · rw [hlate] at hacc
      cases hacc
    · rw [hnone] at hbuf
      cases hbuf
    · have hcall := handleCompletion_send_sendCall u.session ok bytes
        (fun _ => makePacket 0 []) result
      simp only [Conn.after, pushes_append, startedRecvs_append, hcall.messages,
        hcall.recvs, List.append_nil]
      exact ⟨hnone, hlate, hpushes, hstarted⟩
    · have hcall := send_sendCall u.session data result
      simp only [Conn.after, pushes_append, startedRecvs_append, hcall.messages,
        hcall.recvs, List.append_nil]
      exact ⟨hnone, hlate, hpushes, hstarted⟩
    · exact ⟨hnone, hlate, hpushes, hstarted⟩
  rcases hpreserved.run ⟨hrecvs, haccepting, rfl, rfl⟩ hrun with
    ⟨hnone, _, hpushes, hstarted⟩
  exact ⟨hpushes, hstarted, hnone⟩

/-- No sequence of passes through the receive loop goes on for ever. -/
theorem onRecvBody_wellFounded :
    WellFounded fun t u : Session =>
      exists junk msg, u.onRecvBody junk = .next t msg := by
  apply Subrelation.wf (r := InvImage (fun a b : Nat => a < b)
    fun u : Session => u.recvBuffer.getUsedSize)
  · intro t u hnext
    rcases hnext with ⟨junk, msg, hbody⟩
    exact Session.onRecvBody_decreases hbody
  · exact InvImage.wf _ Nat.lt_wfRel.wf

/--
The receiver against the reference parse, after any run of a connection: what
was pushed, what is left in the ring, when the loop closes the session, what
happens after that, and that the loop ends.
-/
theorem receive_matches_reference_parse
    {s : Session} {socket : Nat} {index : Slot} {id handler : Nat}
    {events : List Conn.Event} {c : Conn}
    (hrun : runFrom Conn.step (Conn.fresh s socket index id handler) events =
      some c) :
    (pushes c.calls).map delivery =
        (parseStream (received events)).frames.map (deliveryOf id) ∧
      c.session.recvBuffer.contents = (parseStream (received events)).rest ∧
      (forall buf bytes junk, buf ∈ c.recvs -> bytes.length ≤ buf.len ->
        (0 < closeCount ({ c.receive buf bytes with
            recvBuffer :=
              (c.receive buf bytes).recvBuffer.moveTail bytes.length
          }.onRecvLoop junk).calls <->
            (parseStream (received events ++ bytes)).bad = true) ∧
        (0 < closeCount ((c.receive buf bytes).onRecv bytes.length junk
            .started).calls <->
            (parseStream (received events ++ bytes)).bad = true)) ∧
      ((parseStream (received events)).bad = true ->
        forall later d, runFrom Conn.step c later = some d ->
          pushes d.calls = pushes c.calls ∧
            startedRecvs d.calls = startedRecvs c.calls ∧ d.recvs = []) ∧
      WellFounded fun t u : Session =>
        exists junk msg, u.onRecvBody junk = .next t msg := by
  have h := framed_run hrun
  refine ⟨h.pushed, h.contents,
    fun buf bytes junk hbuf hlen => h.closes_iff hbuf hlen junk, ?_,
    onRecvBody_wellFounded⟩
  intro hbad later d hlater
  rcases h.stopped hbad with ⟨_, hnone, hlate⟩
  exact recvs_nil_run hnone hlate hlater

/-- Session 65543 accepts and receives the packet `hi` in one piece. -/
def greetingEvents : List Conn.Event :=
  [.postRecv .started,
    .recvCompletion true (Frame.encode ⟨0, text "hi"⟩)
      (fun _ => makePacket 0 []) .started]

/-- The packet arrives under the low 16 bits of the session id. -/
theorem receive_matches_reference_parse_greeting :
    exists c, runFrom Conn.step (Conn.first 65543) greetingEvents = some c ∧
      (pushes c.calls).map delivery = [⟨65543, 6, 7, text "hi"⟩] := by
  have hrun : exists c, runFrom Conn.step (Conn.first 65543) greetingEvents = some c :=
    ⟨_, rfl⟩
  rcases hrun with ⟨c, hrun⟩
  have hpushed := (receive_matches_reference_parse hrun).left
  have hlegal : forall f, f ∈ [(⟨0, text "hi"⟩ : Frame)] -> f.Legal := by decide
  have hparse : parseStream (received greetingEvents) =
      ⟨[⟨0, text "hi"⟩], [], false⟩ := parseStream_encode hlegal
  rw [hparse] at hpushed
  exact ⟨c, hrun, hpushed⟩

end Sessions
end ContentServer
