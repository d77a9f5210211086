import ContentServer.Sessions.Connection

/-!
# The send path

While a session is open, the bytes that completed sends have taken and the
bytes still in the ring are together the accepted messages in order.  The one
outstanding send covers a prefix of the ring, its cells are not written before
it completes, and it is outstanding exactly while the ring holds bytes.
-/

namespace ContentServer
namespace Sessions

open Buffers Foundation Protocol

/-- The send side of an open connection. -/
structure Flowing (c : Conn) : Prop where
  stream : c.acked ++ c.session.sendBuffer.contents = c.accepted.flatten
  single : c.sends.length ≤ 1
  region : forall buf, buf ∈ c.sends ->
    buf.buf = c.session.sendBuffer.getHead ∧ 0 < buf.len ∧
      buf.len ≤ c.session.sendBuffer.getUsedSize ∧
      buf.buf + buf.len ≤ BUFFER_SIZE ∧
      c.session.sendBuffer.buffer.window buf.buf buf.len = c.posted
  outstanding : c.sends ≠ [] <-> c.session.sending = true
  sending : c.session.sending = true <-> c.session.sendBuffer.getUsedSize ≠ 0

theorem flowing_fresh (s : Session) (socket : Nat) (index : Slot) (id : Nat)
    (handler : Nat) : Flowing (Conn.fresh s socket index id handler) where
  stream := by
    show [] ++ s.sendBuffer.clear.contents = []
    rw [RingBuffer.contents_clear]
    rfl
  single := Nat.zero_le 1
  region := fun _ hbuf => by cases hbuf
  outstanding := by simp [Conn.fresh, Session.init]
  sending := by simp [Conn.fresh, Session.init]

/-- Steps that touch neither the send ring nor its posts. -/
theorem Flowing.quiet {c d : Conn} (h : Flowing c)
    (hring : d.session.sendBuffer = c.session.sendBuffer)
    (hsending : d.session.sending = c.session.sending)
    (hsends : d.sends = c.sends) (hposted : d.posted = c.posted)
    (hacked : d.acked = c.acked) (haccepted : d.accepted = c.accepted) :
    Flowing d where
  stream := by
    rw [hring, hacked, haccepted]
    exact h.stream
  single := by
    rw [hsends]
    exact h.single
  region := by
    rw [hring, hsends, hposted]
    exact h.region
  outstanding := by
    rw [hsends, hsending]
    exact h.outstanding
  sending := by
    rw [hring, hsending]
    exact h.sending

/-- Steps on the receiving side. -/
theorem Flowing.recvCall {s : Session} {d : Conn} {o : Outcome}
    (h : Flowing d) (ho : RecvCall s o)
    (hring : s.sendBuffer = d.session.sendBuffer)
    (hsending : s.sending = d.session.sending) : Flowing (d.after o) := by
  apply h.quiet
  · exact ho.sendBuffer.trans hring
  · exact ho.sending.trans hsending
  · show d.sends ++ startedSends o.calls = d.sends
    rw [ho.sends, List.append_nil]
  · exact d.posted_after_of_nil ho.sends
  · rfl
  · rfl

/--
`PostSend` with no send outstanding and the sending flag up: unless it closes
the session, it starts a send of the linear part or lowers the flag.
-/
theorem Flowing.postSend {s : Session} {d : Conn} (result : PostResult)
    (hstream : d.acked ++ s.sendBuffer.contents = d.accepted.flatten)
    (hsends : d.sends = []) (hsending : s.sending = true)
    (hopen : (s.postSend result).session.closing = false) :
    Flowing (d.after (s.postSend result)) := by
  rcases postSend_cases s result with
    ⟨heq, hclosed⟩ | ⟨heq, _, hempty⟩ | ⟨buf, _, _, hbuf, hpos, heq⟩ |
    ⟨buf, _, _, _, heq⟩
  · rw [heq, hclosed] at hopen
    cases hopen
  · rw [heq]
    exact {
      stream := hstream
      single := by simp [Conn.after, startedSends, hsends]
      region := fun b hb => by simp [Conn.after, startedSends, hsends] at hb
      outstanding := by simp [Conn.after, startedSends, hsends]
      sending := by simp [Conn.after, hempty] }
  · rw [heq]
    have hlinear : 0 < s.sendBuffer.getLinearUsedSize :=
      s.sendBuffer.getLinearUsedSize_pos_iff.mpr hpos
    exact {
      stream := hstream
      single := by simp [Conn.after, startedSends, hsends]
      region := fun b hb => by
        simp only [Conn.after, startedSends, hsends, List.nil_append,
          List.mem_singleton] at hb
        subst hb
        rw [hbuf]
        exact ⟨rfl, hlinear, s.sendBuffer.getLinearUsedSize_le,
          s.sendBuffer.head_add_getLinearUsedSize_le, rfl⟩
      outstanding := by simp [Conn.after, startedSends, hsends, hsending]
      sending := by
        simp only [Conn.after, hsending, true_iff]
        omega }
  · rw [heq] at hopen
    cases hopen

/-- A completed send drops the bytes it took from the front of the ring. -/
theorem Flowing.onSend {c d : Conn} {buf : WsaBuf} {bytes : Nat}
    (h : Flowing c) (hbuf : buf ∈ c.sends) (hlen : bytes ≤ buf.len)
    (result : PostResult) (hsends : d.sends = [])
    (hacked : d.acked =
      c.acked ++ c.session.sendBuffer.buffer.window buf.buf bytes)
    (haccepted : d.accepted = c.accepted)
    (hopen : (c.session.onSend bytes result).session.closing = false) :
    Flowing (d.after (c.session.onSend bytes result)) := by
  rcases h.region buf hbuf with ⟨hhead, _, hused, _, _⟩
  have hbytes : bytes ≤ c.session.sendBuffer.getUsedSize :=
    Nat.le_trans hlen hused
  have hsending : c.session.sending = true :=
    h.outstanding.mp (List.ne_nil_of_mem hbuf)
  have hstream : d.acked ++ (c.session.sendBuffer.moveHead bytes).contents =
      d.accepted.flatten := by
    rw [hacked, haccepted, ← h.stream, hhead,
      c.session.sendBuffer.contents_moveHead hbytes, List.append_assoc]
    congr 1
    have htake := c.session.sendBuffer.take_contents hbytes
    show c.session.sendBuffer.buffer.window c.session.sendBuffer.head bytes ++ _ = _
    rw [← htake, List.take_append_drop]
  rcases onSend_cases c.session bytes result with ⟨_, heq⟩ | ⟨hempty, heq⟩
  · rw [heq] at hopen ⊢
    exact Flowing.postSend result hstream hsends hsending hopen
  · rw [heq]
    exact {
      stream := hstream
      single := by simp [Conn.after, startedSends, hsends]
      region := fun b hb => by simp [Conn.after, startedSends, hsends] at hb
      outstanding := by simp [Conn.after, startedSends, hsends]
      sending := by simp [Conn.after, hempty] }

/-- `Send` appends a message that fits and drops one that does not. -/
theorem Flowing.send {c : Conn} (h : Flowing c) (data : List UInt8)
    (result : PostResult)
    (hopen : (c.session.send data result).session.closing = false) :
    Flowing ({ c with
      accepted :=
        if c.session.sendBuffer.getEmptySize < data.length then c.accepted
        else c.accepted ++ [data] }.after (c.session.send data result)) := by
  rcases send_cases c.session data result with
    ⟨hover, heq⟩ | ⟨hfits, hbusy, heq⟩ | ⟨hfits, hidle, heq⟩
  · rw [heq, if_pos hover]
    apply h.quiet <;> simp [Conn.after, startedSends]
  · rw [heq, if_neg (by omega)]
    have hcontents := c.session.sendBuffer.contents_write_moveTail hfits
    have hsize := c.session.sendBuffer.getUsedSize_write_moveTail hfits
    have hnonempty : c.session.sendBuffer.getUsedSize ≠ 0 := h.sending.mp hbusy
    exact {
      stream := by
        show c.acked ++ ((c.session.sendBuffer.write data).1.moveTail
          data.length).contents = (c.accepted ++ [data]).flatten
        rw [hcontents, ← List.append_assoc, h.stream, List.flatten_append]
        simp
      single := by
        simp only [Conn.after, startedSends, List.append_nil]
        exact h.single
      region := fun b hb => by
        simp only [Conn.after, startedSends, List.append_nil] at hb
        rcases h.region b hb with ⟨hhead, hpos, hle, hin, hsame⟩
        refine ⟨?_, hpos, ?_, hin, ?_⟩
        · rw [hhead]
          exact (c.session.sendBuffer.write_head data).symm
        · show b.len ≤ ((c.session.sendBuffer.write data).1.moveTail
            data.length).getUsedSize
          omega
        · -- the posted cells are queued cells, which `Write` never touches
          show (c.session.sendBuffer.write data).1.buffer.window b.buf b.len =
            c.posted
          rw [← hsame, hhead]
          exact Memory.window_ext fun i hi =>
            c.session.sendBuffer.cell_write data (by omega)
      outstanding := by
        simp only [Conn.after, startedSends, List.append_nil]
        exact h.outstanding
      sending := by
        show c.session.sending = true <-> ((c.session.sendBuffer.write data).1.moveTail
          data.length).getUsedSize ≠ 0
        rw [hsize, hbusy]
        simp only [true_iff]
        omega }
  · rw [if_neg (by omega)]
    rw [heq] at hopen ⊢
    have hsends : c.sends = [] := by
      by_contra hne
      rw [h.outstanding.mp hne] at hidle
      cases hidle
    refine Flowing.postSend
      (d := { c with accepted := c.accepted ++ [data] }) result ?_ hsends rfl hopen
    show c.acked ++ ((c.session.sendBuffer.write data).1.moveTail
      data.length).contents = (c.accepted ++ [data]).flatten
    rw [c.session.sendBuffer.contents_write_moveTail hfits, ← List.append_assoc,
      h.stream, List.flatten_append]
    simp

/-!
# Steps and runs
-/

/-- While the session stays open, a step keeps the send side in order. -/
theorem flowing_step {c d : Conn} {e : Conn.Event} (h : Flowing c)
    (hstep : c.step e = some d) (hopen : d.session.closing = false) :
    Flowing d := by
  rcases Conn.step_cases hstep with
    ⟨result, rfl, _, rfl⟩ |
    ⟨ok, bytes, junk, result, buf, rest, rfl, _, _, rfl⟩ |
    ⟨ok, bytes, result, buf, rest, rfl, hsends, hlen, rfl⟩ |
    ⟨data, result, rfl, rfl⟩ | ⟨rfl, _, rfl⟩
  · exact Flowing.recvCall (d := { c with accepting := false })
      (h.quiet rfl rfl rfl rfl rfl rfl) (postRecv_recvCall c.session result)
      rfl rfl
  · exact Flowing.recvCall (d := { c with recvs := rest, handlers := c.handlers + 1 })
      (h.quiet rfl rfl rfl rfl rfl rfl)
      (handleCompletion_recv_recvCall (c.receive buf bytes) ok bytes.length junk
        result) rfl rfl
  · have hrest : rest = [] := by
      have hsingle := h.single
      rw [hsends, List.length_cons] at hsingle
      exact List.length_eq_zero_iff.mp (by omega)
    cases ok with
    | false => cases hopen
    | true =>
        exact Flowing.onSend h (by rw [hsends]; exact List.mem_cons_self) hlen
          result hrest rfl rfl hopen
  · exact h.send data result hopen
  · exact h.quiet rfl rfl rfl rfl rfl rfl

/-- A closing session stays closing until the slot is given away. -/
theorem closing_step {c d : Conn} {e : Conn.Event} (hstep : c.step e = some d)
    (hclosing : c.session.closing = true) : d.session.closing = true := by
  rcases Conn.step_cases hstep with
    ⟨result, rfl, _, rfl⟩ |
    ⟨ok, bytes, junk, result, buf, rest, rfl, _, _, rfl⟩ |
    ⟨ok, bytes, result, buf, rest, rfl, _, _, rfl⟩ |
    ⟨data, result, rfl, rfl⟩ | ⟨rfl, _, rfl⟩
  · exact (postRecv_recvCall c.session result).toTallies.closing_mono hclosing
  · exact (handleCompletion_recv_recvCall (c.receive buf bytes) ok bytes.length
      junk result).toTallies.closing_mono hclosing
  · exact (handleCompletion_send_sendCall c.session ok bytes _
      result).toTallies.closing_mono hclosing
  · exact (send_sendCall c.session data result).toTallies.closing_mono hclosing
  · exact hclosing

/-- The send side of an open connection after any run from `Init`. -/
theorem flowing_run {s : Session} {socket : Nat} {index : Slot} {id : Nat}
    {handler : Nat} {events : List Conn.Event} {c : Conn}
    (hrun : runFrom Conn.step (Conn.fresh s socket index id handler) events =
      some c) (hopen : c.session.closing = false) : Flowing c := by
  have hpreserved : Preserved Conn.step
      (fun u : Conn => u.session.closing = false -> Flowing u) := by
    intro u e v hu hstep hv
    have hbefore : u.session.closing = false := by
      cases hclosing : u.session.closing with
      | false => rfl
      | true =>
          rw [closing_step hstep hclosing] at hv
          cases hv
    exact flowing_step (hu hbefore) hstep hv
  exact hpreserved.run
    (fun _ => flowing_fresh s socket index id handler) hrun hopen

/-!
# Integrity of the send stream
-/

/-- `Send` takes all of a message that fits and nothing of one that does not. -/
theorem contents_send (s : Session) (data : List UInt8) (result : PostResult) :
    (s.send data result).session.sendBuffer.contents =
      if s.sendBuffer.getEmptySize < data.length then s.sendBuffer.contents
      else s.sendBuffer.contents ++ data := by
  have hpost : forall t : Session,
      (t.postSend result).session.sendBuffer = t.sendBuffer := by
    intro t
    rcases postSend_cases t result with
      ⟨heq, _⟩ | ⟨heq, _, _⟩ | ⟨buf, _, _, _, _, heq⟩ | ⟨buf, _, _, _, heq⟩ <;>
      rw [heq]
  rcases send_cases s data result with
    ⟨hover, heq⟩ | ⟨hfits, _, heq⟩ | ⟨hfits, _, heq⟩
  · rw [heq, if_pos hover]
  · rw [heq, if_neg (by omega)]
    exact s.sendBuffer.contents_write_moveTail hfits
  · rw [heq, if_neg (by omega), hpost]
    exact s.sendBuffer.contents_write_moveTail hfits

/--
The send stream of an open connection, after any interleaving of `Send` calls
and completions of the outstanding send.
-/
theorem send_stream_integrity
    {s : Session} {socket : Nat} {index : Slot} {id handler : Nat}
    {events : List Conn.Event} {c : Conn}
    (hrun : runFrom Conn.step (Conn.fresh s socket index id handler) events =
      some c) (hopen : c.session.closing = false) :
    c.acked ++ c.session.sendBuffer.contents = c.accepted.flatten ∧
      (forall data result d, c.step (.send data result) = some d ->
        if c.session.sendBuffer.getEmptySize < data.length then
          d.accepted = c.accepted ∧
            d.session.sendBuffer.contents = c.session.sendBuffer.contents
        else
          d.accepted = c.accepted ++ [data] ∧
            d.session.sendBuffer.contents =
              c.session.sendBuffer.contents ++ data) ∧
      c.sends.length ≤ 1 ∧
      (forall buf, buf ∈ c.sends ->
        0 < buf.len ∧ buf.buf + buf.len ≤ BUFFER_SIZE ∧
          c.session.sendBuffer.buffer.window buf.buf buf.len = c.posted ∧
          c.posted = c.session.sendBuffer.contents.take buf.len) ∧
      (c.sends ≠ [] <-> c.session.sending = true) ∧
      (c.session.sending = true <-> c.session.sendBuffer.contents ≠ []) := by
  have h := flowing_run hrun hopen
  refine ⟨h.stream, ?_, h.single, ?_, h.outstanding, ?_⟩
  · intro data result d hstep
    cases hstep
    have hcontents := contents_send c.session data result
    by_cases hover : c.session.sendBuffer.getEmptySize < data.length
    · rw [if_pos hover] at hcontents
      rw [if_pos hover]
      exact ⟨if_pos hover, hcontents⟩
    · rw [if_neg hover] at hcontents
      rw [if_neg hover]
      exact ⟨if_neg hover, hcontents⟩
  · intro buf hbuf
    rcases h.region buf hbuf with ⟨hhead, hpos, hused, hin, hsame⟩
    refine ⟨hpos, hin, hsame, ?_⟩
    rw [← hsame, hhead, c.session.sendBuffer.take_contents hused]
    rfl
  · rw [h.sending, Ne, Ne, c.session.sendBuffer.contents_eq_nil_iff]

/--
Two messages are queued behind a send of one byte; the completion takes it, and
the next send carries both messages.
-/
def chatterEvents : List Conn.Event :=
  [.postRecv .started, .send (text "a") .started, .send (text "bc") .started,
    .send (text "d") .started, .sendCompletion true 1 .started, .completeIo]

theorem send_stream_integrity_chatter :
    exists c, runFrom Conn.step (Conn.first 1) chatterEvents = some c ∧
      c.acked ++ c.session.sendBuffer.contents = text "abcd" ∧
      c.sends.length ≤ 1 := by
  have hrun : exists c, runFrom Conn.step (Conn.first 1) chatterEvents = some c ∧
      c.session.closing = false ∧ c.accepted.flatten = text "abcd" :=
    ⟨_, rfl, rfl, rfl⟩
  rcases hrun with ⟨c, hrun, hopen, haccepted⟩
  have hstream := send_stream_integrity hrun hopen
  rw [← haccepted]
  exact ⟨c, hrun, hstream.left, hstream.right.right.left⟩

end Sessions
end ContentServer
