import ContentServer.Sessions.ReceivePath

/-!
# Closing the socket handle

`Close` raises the flag and closes the handle without looking at the flag first.
The first call of a connection is therefore harmless, and the handle is closed
again exactly when a later step reaches `Close` with the flag up: a failed
completion, an empty receive, or a rejected header.
-/

namespace ContentServer
namespace Sessions

open Buffers Foundation Protocol

/-- Events that reach `Close` even if the session is closing already. -/
def Conn.Recloses (c : Conn) : Conn.Event -> Prop
  | .recvCompletion ok bytes _ _ =>
      ok = false ∨ bytes = [] ∨
        (parseStream (c.session.recvBuffer.contents ++ bytes)).bad = true
  | .sendCompletion ok _ _ => ok = false
  | .postRecv _ => False
  | .send _ _ => False
  | .completeIo => False

/-- The flag says whether the handle of this connection was closed. -/
structure Closing (socket : Nat) (c : Conn) : Prop where
  owner : c.session.socket = socket
  flag : c.session.closing = decide (0 < closeCount c.calls)
  handles : forall handle, .closesocket handle ∈ c.calls -> handle = socket

theorem closing_fresh (s : Session) (socket : Nat) (index : Slot) (id : Nat)
    (handler : Nat) : Closing socket (Conn.fresh s socket index id handler) where
  owner := rfl
  flag := rfl
  handles := fun _ hmem => by cases hmem

theorem closing_preserved (socket : Nat) :
    Preserved Conn.step (Closing socket) := by
  intro c e d h hstep
  rcases step_tallies hstep with
    ⟨o, ho, hsession, hcalls⟩ | ⟨hcalls, hflag, howner⟩
  · exact {
      owner := by rw [hsession, ho.owner.socket, h.owner]
      flag := by
        rw [hsession, ho.closing, h.flag, hcalls, closeCount_append]
        by_cases hbefore : 0 < closeCount c.calls <;>
          by_cases hnow : 0 < closeCount o.calls <;> simp [hbefore, hnow]
      handles := fun handle hmem => by
        rw [hcalls] at hmem
        rcases List.mem_append.mp hmem with hmem | hmem
        · exact h.handles handle hmem
        · rw [ho.sockets handle hmem, h.owner] }
  · exact {
      owner := howner.socket.trans h.owner
      flag := by rw [hflag, hcalls, h.flag]
      handles := by
        rw [hcalls]
        exact h.handles }

theorem closeCount_step_mono {c d : Conn} {e : Conn.Event}
    (hstep : c.step e = some d) : closeCount c.calls ≤ closeCount d.calls := by
  rcases step_tallies hstep with ⟨o, _, _, hcalls⟩ | ⟨hcalls, _, _⟩
  · rw [hcalls, closeCount_append]
    exact Nat.le_add_right _ _
  · rw [hcalls]

/-!
# The calls of one step
-/

theorem closeCount_handleCompletion_recv_le (s : Session) (ok : Bool)
    (bytes : Nat) (junk : Nat -> Packet) (result : PostResult) :
    closeCount (s.handleCompletion ok .recv bytes junk result).calls ≤ 1 := by
  cases ok with
  | false => exact Nat.le_refl 1
  | true =>
      by_cases hzero : bytes = 0
      · simp [Session.handleCompletion, hzero, Session.close, closeCount]
      · simpa [Session.handleCompletion, hzero] using
          closeCount_onRecv_le s bytes junk result

theorem closeCount_handleCompletion_send_le (s : Session) (ok : Bool)
    (bytes : Nat) (junk : Nat -> Packet) (result : PostResult) :
    closeCount (s.handleCompletion ok .send bytes junk result).calls ≤ 1 := by
  cases ok with
  | false => exact Nat.le_refl 1
  | true => exact closeCount_onSend_le s bytes result

/-- No step calls `Close` twice. -/
theorem closeCount_step_le {c d : Conn} {e : Conn.Event}
    (hstep : c.step e = some d) :
    closeCount d.calls ≤ closeCount c.calls + 1 := by
  rcases Conn.step_cases hstep with
    ⟨result, rfl, _, rfl⟩ |
    ⟨ok, bytes, junk, result, buf, rest, rfl, _, _, rfl⟩ |
    ⟨ok, bytes, result, buf, rest, rfl, _, _, rfl⟩ |
    ⟨data, result, rfl, rfl⟩ | ⟨rfl, _, rfl⟩
  · simp only [Conn.after, closeCount_append]
    exact Nat.add_le_add_left (closeCount_postRecv_le c.session result) _
  · simp only [Conn.after, closeCount_append]
    exact Nat.add_le_add_left (closeCount_handleCompletion_recv_le
      (c.receive buf bytes) ok bytes.length junk result) _
  · simp only [Conn.after, closeCount_append]
    exact Nat.add_le_add_left (closeCount_handleCompletion_send_le c.session ok
      bytes _ result) _
  · simp only [Conn.after, closeCount_append]
    exact Nat.add_le_add_left (closeCount_send_le c.session data result) _
  · exact Nat.le_succ _

/-- With the flag up, a step closes the handle exactly for these events. -/
theorem closeCount_step_of_closing {owner : Session} {stream : List UInt8}
    {c d : Conn} {e : Conn.Event} (h : Framed owner stream c)
    (hclosing : c.session.closing = true) (hstep : c.step e = some d) :
    closeCount d.calls = closeCount c.calls <-> ¬ c.Recloses e := by
  rcases Conn.step_cases hstep with
    ⟨result, rfl, _, rfl⟩ |
    ⟨ok, bytes, junk, result, buf, rest, rfl, hrecvs, hlen, rfl⟩ |
    ⟨ok, bytes, result, buf, rest, rfl, _, _, rfl⟩ |
    ⟨data, result, rfl, rfl⟩ | ⟨rfl, _, rfl⟩
  · simp only [Conn.after, closeCount_append,
      closeCount_postRecv_of_closing result hclosing, Conn.Recloses]
    simp
  · have hbuf : buf ∈ c.recvs := by
      rw [hrecvs]
      exact List.mem_cons_self
    have hfill := h.contents_receive hbuf hlen
    rw [← h.contents] at hfill
    simp only [Conn.after, closeCount_append, Conn.Recloses]
    cases ok with
    | false => simp [Session.handleCompletion, Session.close, closeCount]
    | true =>
        by_cases hnil : bytes = []
        · simp [Session.handleCompletion, Session.close, closeCount, hnil]
        · have honRecv : (c.receive buf bytes).handleCompletion true .recv
              bytes.length junk result =
              (c.receive buf bytes).onRecv bytes.length junk result := by
            simp [Session.handleCompletion, hnil]
          rw [honRecv, closeCount_onRecv_of_closing (s := c.receive buf bytes)
            bytes.length junk result hclosing, hfill]
          cases (parseStream (c.session.recvBuffer.contents ++ bytes)).bad <;>
            simp [hnil]
  · simp only [Conn.after, closeCount_append, Conn.Recloses]
    cases ok with
    | false => simp [Session.handleCompletion, Session.close, closeCount]
    | true =>
        have honSend : closeCount (c.session.handleCompletion true .send bytes
            (fun _ => makePacket 0 []) result).calls = 0 :=
          closeCount_onSend_of_closing bytes result hclosing
        simp [honSend]
  · simp only [Conn.after, closeCount_append,
      closeCount_send_of_closing data result hclosing, Conn.Recloses]
    simp
  · simp [Conn.Recloses]

/-!
# The exact condition
-/

/-- All `closesocket` calls of a connection are on its own handle. -/
theorem Closing.count_eq {socket : Nat} {c : Conn} (h : Closing socket c) :
    c.calls.count (.closesocket socket) = closeCount c.calls := by
  have hall := h.handles
  generalize c.calls = calls at hall
  induction calls with
  | nil => rfl
  | cons call rest ih =>
      have hrest := ih fun handle hmem =>
        hall handle (List.mem_cons_of_mem call hmem)
      cases call with
      | closesocket handle =>
          rw [hall handle List.mem_cons_self, List.count_cons_self, hrest]
          rfl
      | wsaRecv buf result =>
          rw [List.count_cons_of_ne (by simp), hrest]
          rfl
      | wsaSend buf result =>
          rw [List.count_cons_of_ne (by simp), hrest]
          rfl
      | push queue msg =>
          rw [List.count_cons_of_ne (by simp), hrest]
          rfl

/--
In a run from `Init`, the handle is closed at most once in every state exactly
when no step reaches `Close` with the flag already up.
-/
theorem socket_closed_once_iff
    {s : Session} {socket : Nat} {index : Slot} {id handler : Nat}
    {events : List Conn.Event} {c : Conn}
    (hrun : runFrom Conn.step (Conn.fresh s socket index id handler) events =
      some c) :
    (forall d, Visits Conn.step (Conn.fresh s socket index id handler) events d ->
      d.calls.count (.closesocket socket) ≤ 1) <->
    EveryStep Conn.step (fun d e => d.session.closing = true -> ¬ d.Recloses e)
      (Conn.fresh s socket index id handler) events := by
  let owner : Session := s.init socket index id handler
  let I : Conn -> Prop := fun d =>
    Closing socket d ∧ exists stream, Framed owner stream d
  have hI : Preserved Conn.step I := by
    intro u e v hu hstep
    rcases hu with ⟨hclosing, stream, hframed⟩
    exact ⟨closing_preserved socket u e v hclosing hstep, _,
      framed_step hframed hstep⟩
  refine visits_iff_everyStep hI ?_
    ⟨closing_fresh s socket index id handler, [],
      framed_fresh s socket index id handler⟩ (Nat.zero_le 1) hrun
  intro u e v hu hcount hstep
  have hv := closing_preserved socket u e v hu.left hstep
  rcases hu with ⟨hclosing, stream, hframed⟩
  rw [hclosing.count_eq] at hcount
  rw [hv.count_eq]
  cases hflag : u.session.closing with
  | false =>
      have hnone : closeCount u.calls = 0 := by
        have hzero := hclosing.flag
        rw [hflag] at hzero
        simpa using hzero.symm
      have hstepLe := closeCount_step_le hstep
      constructor
      · intro _ hcontra
        cases hcontra
      · intro _
        omega
  | true =>
      have hone : closeCount u.calls = 1 := by
        have hpos := hclosing.flag
        rw [hflag] at hpos
        have : 0 < closeCount u.calls := by simpa using hpos.symm
        omega
      rw [← closeCount_step_of_closing hframed hflag hstep]
      have hmono := closeCount_step_mono hstep
      constructor
      · intro hle _
        omega
      · intro heq
        have := heq rfl
        omega

/-- The peer closes; nothing else was outstanding. -/
def partingEvents : List Conn.Event :=
  [.postRecv .started,
    .recvCompletion true [] (fun _ => makePacket 0 []) .started, .completeIo]

theorem socket_closed_once_iff_parting :
    exists c, runFrom Conn.step (Conn.first 1) partingEvents = some c ∧
      c.calls.count (.closesocket 3) ≤ 1 := by
  have hrun : exists c, runFrom Conn.step (Conn.first 1) partingEvents = some c :=
    ⟨_, rfl⟩
  rcases hrun with ⟨c, hrun⟩
  refine ⟨c, hrun, (socket_closed_once_iff hrun).mpr ?_ c (visits_last hrun)⟩
  constructor
  · intro hclosing
    cases hclosing
  · intro t ht
    cases ht
    constructor
    · intro hclosing
      cases hclosing
    · intro t ht
      cases ht
      exact ⟨fun _ hcontra => hcontra, fun _ _ => trivial⟩

/-- A receive and a send are outstanding when the connection breaks. -/
def brokenEvents : List Conn.Event :=
  [.postRecv .started, .send (text "a") .started,
    .recvCompletion false [] (fun _ => makePacket 0 []) .started,
    .sendCompletion false 0 .started]

/-- Both completions report the failure, and each of them closes handle 3. -/
theorem socket_closed_twice_broken :
    ¬ forall d, Visits Conn.step (Conn.first 1) brokenEvents d ->
      d.calls.count (.closesocket 3) ≤ 1 := by
  intro hall
  have hrun : exists c, runFrom Conn.step (Conn.first 1) brokenEvents = some c ∧
      c.calls.count (.closesocket 3) = 2 := ⟨_, rfl, rfl⟩
  rcases hrun with ⟨c, hrun, htwo⟩
  have hle := hall c (visits_last hrun)
  omega

end Sessions
end ContentServer
