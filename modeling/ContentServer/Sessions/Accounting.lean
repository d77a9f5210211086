import ContentServer.Sessions.Connection

/-!
# Counting outstanding work

The counter of a session is the number of operations that are outstanding plus
the handlers that have not released theirs.  At most one receive and one send
are outstanding, and a handler is told to destroy the session only when nothing
else is left, which happens once.
-/

namespace ContentServer
namespace Sessions

open Foundation Protocol

structure Accounted (c : Conn) : Prop where
  pendingIo : c.session.pendingIo = c.recvs.length + c.sends.length + c.handlers
  recvs : c.recvs.length ≤ 1
  sends : c.sends.length ≤ 1
  early : c.accepting = true -> c.recvs = []
  sending : c.sends ≠ [] -> c.session.sending = true
  destroying : c.destroying ≤ 1
  last : c.destroying ≠ 0 -> c.session.closing = true ∧ c.recvs = [] ∧
    c.sends = [] ∧ c.handlers = 0

theorem accounted_fresh (s : Session) (socket : Nat) (index : Slot) (id : Nat)
    (handler : Nat) : Accounted (Conn.fresh s socket index id handler) where
  pendingIo := rfl
  recvs := Nat.zero_le 1
  sends := Nat.zero_le 1
  early := fun _ => rfl
  sending := fun hne => absurd rfl hne
  destroying := Nat.zero_le 1
  last := fun hne => absurd rfl hne

namespace Accounted

variable {c d : Conn}

/-- While something is left, nobody has been told to destroy the session. -/
theorem destroying_eq_zero (h : Accounted c)
    (hleft : c.recvs ≠ [] ∨ c.sends ≠ [] ∨ c.handlers ≠ 0) :
    c.destroying = 0 := by
  by_contra hne
  rcases h.last hne with ⟨_, hrecvs, hsends, hhandlers⟩
  rcases hleft with hleft | hleft | hleft
  · exact hleft hrecvs
  · exact hleft hsends
  · exact hleft hhandlers

/-- A call on the receiving side, when no receive is outstanding. -/
theorem recvCall {s : Session} {o : Outcome} (ho : RecvCall s o)
    (hpending : s.pendingIo = d.sends.length + d.handlers)
    (hrecvs : d.recvs = []) (hsends : d.sends.length ≤ 1)
    (haccepting : d.accepting = false)
    (hsending : d.sends ≠ [] -> s.sending = true)
    (hdestroying : d.destroying ≤ 1)
    (hlast : d.destroying ≠ 0 -> s.closing = true ∧ d.sends = [] ∧
      d.handlers = 0) : Accounted (d.after o) := by
  constructor
  · show o.session.pendingIo = ((d.recvs ++ startedRecvs o.calls).length : Int) +
      (d.sends ++ startedSends o.calls).length + d.handlers
    rw [ho.pendingIo, hpending, hrecvs, ho.sends, List.nil_append,
      List.append_nil, List.length_nil]
    push_cast
    ring
  · show (d.recvs ++ startedRecvs o.calls).length ≤ 1
    rw [hrecvs, List.nil_append]
    exact ho.recvs
  · show (d.sends ++ startedSends o.calls).length ≤ 1
    rw [ho.sends, List.append_nil]
    exact hsends
  · intro hacc
    replace hacc : d.accepting = true := hacc
    rw [haccepting] at hacc
    cases hacc
  · intro hne
    replace hne : d.sends ++ startedSends o.calls ≠ [] := hne
    rw [ho.sends, List.append_nil] at hne
    exact ho.sending.trans (hsending hne)
  · exact hdestroying
  · intro hne
    rcases hlast hne with ⟨hclosing, hnone, hhandlers⟩
    refine ⟨ho.toTallies.closing_mono hclosing, ?_, ?_, hhandlers⟩
    · show d.recvs ++ startedRecvs o.calls = []
      rw [hrecvs, (ho.noPost hclosing).left]
      rfl
    · show d.sends ++ startedSends o.calls = []
      rw [hnone, ho.sends]
      rfl

/-- A call on the sending side that starts a send only if none is outstanding. -/
theorem sendCall {s : Session} {o : Outcome} (ho : SendCall s o)
    (hpending : s.pendingIo = d.recvs.length + d.sends.length + d.handlers)
    (hrecvs : d.recvs.length ≤ 1)
    (hsends : (d.sends ++ startedSends o.calls).length ≤ 1)
    (hearly : d.accepting = true -> d.recvs = [])
    (hsending : d.sends ++ startedSends o.calls ≠ [] ->
      o.session.sending = true)
    (hdestroying : d.destroying ≤ 1)
    (hlast : d.destroying ≠ 0 -> s.closing = true ∧ d.recvs = [] ∧
      d.sends = [] ∧ d.handlers = 0) : Accounted (d.after o) := by
  constructor
  · show o.session.pendingIo = ((d.recvs ++ startedRecvs o.calls).length : Int) +
      (d.sends ++ startedSends o.calls).length + d.handlers
    rw [ho.pendingIo, hpending, ho.recvs, List.append_nil, List.length_nil,
      List.length_append]
    push_cast
    ring
  · show (d.recvs ++ startedRecvs o.calls).length ≤ 1
    rw [ho.recvs, List.append_nil]
    exact hrecvs
  · exact hsends
  · intro hacc
    show d.recvs ++ startedRecvs o.calls = []
    rw [ho.recvs, List.append_nil]
    exact hearly hacc
  · exact hsending
  · exact hdestroying
  · intro hne
    rcases hlast hne with ⟨hclosing, hnone, hnothing, hhandlers⟩
    refine ⟨ho.toTallies.closing_mono hclosing, ?_, ?_, hhandlers⟩
    · show d.recvs ++ startedRecvs o.calls = []
      rw [hnone, ho.recvs]
      rfl
    · show d.sends ++ startedSends o.calls = []
      rw [hnothing, (ho.noPost hclosing).right]
      rfl

end Accounted

/-!
# The sending flag
-/

theorem sending_postSend {s : Session} {result : PostResult}
    (hs : s.sending = true)
    (hstarted : startedSends (s.postSend result).calls ≠ []) :
    (s.postSend result).session.sending = true := by
  rcases postSend_cases s result with
    ⟨heq, _⟩ | ⟨heq, _, _⟩ | ⟨buf, _, _, _, _, heq⟩ | ⟨buf, _, _, _, heq⟩
  · rw [heq] at hstarted
    exact absurd rfl hstarted
  · rw [heq] at hstarted
    exact absurd rfl hstarted
  · rw [heq]
    exact hs
  · rw [heq] at hstarted
    exact absurd rfl hstarted

/-- `onSend` and a failed completion leave the flag up if they post again. -/
theorem sending_handleCompletion {s : Session} {ok : Bool} {bytes : Nat}
    {junk : Nat -> Packet} {result : PostResult} (hs : s.sending = true)
    (hstarted : startedSends
      (s.handleCompletion ok .send bytes junk result).calls ≠ []) :
    (s.handleCompletion ok .send bytes junk result).session.sending = true := by
  cases ok with
  | false => exact absurd rfl hstarted
  | true =>
      replace hstarted : startedSends (s.onSend bytes result).calls ≠ [] :=
        hstarted
      show (s.onSend bytes result).session.sending = true
      rcases onSend_cases s bytes result with ⟨_, heq⟩ | ⟨_, heq⟩
      · rw [heq] at hstarted ⊢
        exact sending_postSend hs hstarted
      · rw [heq] at hstarted
        exact absurd rfl hstarted

/-- `Send` posts only when the flag was down, and raises it then. -/
theorem sending_send (s : Session) (data : List UInt8) (result : PostResult) :
    (startedSends (s.send data result).calls ≠ [] ->
      s.sending = false ∧ (s.send data result).session.sending = true) ∧
    (s.sending = true -> (s.send data result).session.sending = true) := by
  rcases send_cases s data result with
    ⟨_, heq⟩ | ⟨_, hbusy, heq⟩ | ⟨_, hidle, heq⟩
  · rw [heq]
    exact ⟨fun hne => absurd rfl hne, fun hs => hs⟩
  · rw [heq]
    exact ⟨fun hne => absurd rfl hne, fun hs => hs⟩
  · rw [heq, hidle]
    constructor
    · intro hstarted
      exact ⟨rfl, sending_postSend rfl hstarted⟩
    · intro hcontra
      cases hcontra

/-!
# Steps
-/

namespace Accounted

variable {c : Conn}

theorem postRecv (h : Accounted c) (hacc : c.accepting = true)
    (result : PostResult) :
    Accounted ({ c with accepting := false }.after
      (c.session.postRecv result)) := by
  have hnone := h.early hacc
  have hpending := h.pendingIo
  rw [hnone, List.length_nil] at hpending
  refine recvCall (postRecv_recvCall c.session result) ?_ hnone h.sends rfl
    h.sending h.destroying ?_
  · rw [hpending]
    push_cast
    ring
  · intro hne
    rcases h.last hne with ⟨hclosing, _, hsends, hhandlers⟩
    exact ⟨hclosing, hsends, hhandlers⟩

/-- The only outstanding receive turns into a handler. -/
theorem recvCompletion (h : Accounted c) {buf : WsaBuf} {rest : List WsaBuf}
    (hrecvs : c.recvs = buf :: rest) (ok : Bool) (bytes : List UInt8)
    (junk : Nat -> Packet) (result : PostResult) :
    Accounted ({ c with recvs := rest, handlers := c.handlers + 1 }.after
      ((c.receive buf bytes).handleCompletion ok .recv bytes.length junk
        result)) := by
  have hzero := h.destroying_eq_zero
    (Or.inl (by rw [hrecvs]; exact List.cons_ne_nil buf rest))
  have hrest : rest = [] := by
    have hsingle := h.recvs
    rw [hrecvs, List.length_cons] at hsingle
    exact List.length_eq_zero_iff.mp (by omega)
  subst hrest
  refine recvCall (handleCompletion_recv_recvCall (c.receive buf bytes) ok
    bytes.length junk result) ?_ rfl h.sends ?_ h.sending h.destroying ?_
  · show c.session.pendingIo = (c.sends.length : Int) + (c.handlers + 1 : Nat)
    rw [h.pendingIo, hrecvs, List.length_singleton]
    push_cast
    ring
  · show c.accepting = false
    cases hacc : c.accepting with
    | false => rfl
    | true =>
        rw [h.early hacc] at hrecvs
        cases hrecvs
  · intro hne
    exact absurd hzero hne

/-- The only outstanding send turns into a handler. -/
theorem sendCompletion (h : Accounted c) {buf : WsaBuf} {rest : List WsaBuf}
    (hsends : c.sends = buf :: rest) (ok : Bool) (bytes : Nat)
    (acked : List UInt8) (result : PostResult) :
    Accounted ({ c with
      sends := rest
      handlers := c.handlers + 1
      acked := acked }.after
        (c.session.handleCompletion ok .send bytes (fun _ => makePacket 0 [])
          result)) := by
  have hzero := h.destroying_eq_zero
    (Or.inr (Or.inl (by rw [hsends]; exact List.cons_ne_nil buf rest)))
  have hsingle := h.sends
  rw [hsends, List.length_cons] at hsingle
  have hrest : rest = [] := List.length_eq_zero_iff.mp (by omega)
  subst hrest
  have hflag := h.sending (by rw [hsends]; exact List.cons_ne_nil buf [])
  have hcall := handleCompletion_send_sendCall c.session ok bytes
    (fun _ => makePacket 0 []) result
  refine sendCall hcall ?_ h.recvs ?_ h.early ?_ h.destroying ?_
  · show c.session.pendingIo =
      (c.recvs.length : Int) + ([] : List WsaBuf).length + (c.handlers + 1 : Nat)
    rw [h.pendingIo, hsends, List.length_singleton, List.length_nil]
    push_cast
    ring
  · exact hcall.sends
  · exact sending_handleCompletion hflag
  · intro hne
    exact absurd hzero hne

theorem send (h : Accounted c) (data : List UInt8)
    (accepted : List (List UInt8)) (result : PostResult) :
    Accounted ({ c with accepted := accepted }.after
      (c.session.send data result)) := by
  have hflag := sending_send c.session data result
  have hcall := send_sendCall c.session data result
  refine sendCall hcall h.pendingIo h.recvs ?_ h.early ?_ h.destroying h.last
  · show (c.sends ++ startedSends (c.session.send data result).calls).length ≤ 1
    by_cases hnone : startedSends (c.session.send data result).calls = []
    · rw [hnone, List.append_nil]
      exact h.sends
    · have hidle := (hflag.left hnone).left
      have hsends : c.sends = [] := by
        by_contra hne
        rw [h.sending hne] at hidle
        cases hidle
      rw [hsends, List.nil_append]
      exact hcall.sends
  · intro hne
    replace hne : c.sends ++ startedSends
      (c.session.send data result).calls ≠ [] := hne
    by_cases hnone : startedSends (c.session.send data result).calls = []
    · rw [hnone, List.append_nil] at hne
      exact hflag.right (h.sending hne)
    · exact (hflag.left hnone).right

/-- `CompleteIo` says so only to the handler that leaves nothing behind. -/
theorem nothing_left (h : Accounted c) (hpos : 0 < c.handlers)
    (hdone : c.session.completeIo.2 = true) :
    c.session.closing = true ∧ c.recvs = [] ∧ c.sends = [] ∧
      c.handlers - 1 = 0 := by
  replace hdone : (c.session.closing && c.session.pendingIo - 1 == 0) = true :=
    hdone
  rw [Bool.and_eq_true, beq_iff_eq, h.pendingIo] at hdone
  rcases hdone with ⟨hclosing, hcount⟩
  have hrecvs : c.recvs.length = 0 := by omega
  have hsends : c.sends.length = 0 := by omega
  exact ⟨hclosing, List.length_eq_zero_iff.mp hrecvs,
    List.length_eq_zero_iff.mp hsends, by omega⟩

theorem completeIo (h : Accounted c) (hpos : 0 < c.handlers) :
    Accounted { c with
      session := c.session.completeIo.1
      handlers := c.handlers - 1
      destroying :=
        c.destroying + if c.session.completeIo.2 then 1 else 0 } := by
  have hzero := h.destroying_eq_zero (Or.inr (Or.inr (Nat.ne_of_gt hpos)))
  constructor
  · show c.session.pendingIo - 1 =
      (c.recvs.length : Int) + c.sends.length + (c.handlers - 1 : Nat)
    rw [h.pendingIo, Nat.cast_sub hpos]
    push_cast
    ring
  · exact h.recvs
  · exact h.sends
  · exact h.early
  · exact h.sending
  · show c.destroying + _ ≤ 1
    rw [hzero]
    split <;> omega
  · intro hne
    replace hne : c.destroying + (if c.session.completeIo.2 then 1 else 0) ≠ 0 :=
      hne
    rw [hzero] at hne
    apply h.nothing_left hpos
    by_contra hnot
    rw [if_neg hnot] at hne
    exact hne rfl

end Accounted

theorem accounted_step {c d : Conn} {e : Conn.Event} (h : Accounted c)
    (hstep : c.step e = some d) : Accounted d := by
  rcases Conn.step_cases hstep with
    ⟨result, rfl, hacc, rfl⟩ |
    ⟨ok, bytes, junk, result, buf, rest, rfl, hrecvs, _, rfl⟩ |
    ⟨ok, bytes, result, buf, rest, rfl, hsends, _, rfl⟩ |
    ⟨data, result, rfl, rfl⟩ | ⟨rfl, hpos, rfl⟩
  · exact h.postRecv hacc result
  · exact h.recvCompletion hrecvs ok bytes junk result
  · exact h.sendCompletion hsends ok bytes _ result
  · exact h.send data _ result
  · exact h.completeIo hpos

end Sessions
end ContentServer
