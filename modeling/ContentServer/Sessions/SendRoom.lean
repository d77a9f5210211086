import ContentServer.Sessions.SendPath

/-!
# Room in the send ring

`Send` drops a message that does not fit into the ring, and only completions
make room.  Messages that all fit together are never dropped, whatever happens
in between; messages that do not are dropped if nothing completes.
-/

namespace ContentServer
namespace Sessions

open Buffers Foundation Protocol

/-- The message that an event hands to `Send`. -/
def sentBy : Conn.Event -> List (List UInt8)
  | .send data _ => [data]
  | _ => []

/-- The messages that a run hands to `Send`, in order. -/
def sent (events : List Conn.Event) : List (List UInt8) :=
  events.flatMap sentBy

/-- How many bytes messages need. -/
def needed (texts : List (List UInt8)) : Nat :=
  (texts.map List.length).sum

/-- The outstanding send covers bytes that are still in the ring. -/
structure Covered (c : Conn) : Prop where
  single : c.sends.length ≤ 1
  used : forall buf, buf ∈ c.sends ->
    buf.len ≤ c.session.sendBuffer.getUsedSize
  sending : c.sends ≠ [] -> c.session.sending = true

theorem Flowing.covered {c : Conn} (h : Flowing c) : Covered c where
  single := h.single
  used := fun buf hbuf => (h.region buf hbuf).right.right.left
  sending := h.outstanding.mp

/-- Steps that touch neither the send ring nor its sends. -/
theorem Covered.quiet {c d : Conn} (h : Covered c)
    (hring : d.session.sendBuffer = c.session.sendBuffer)
    (hsending : d.session.sending = c.session.sending) (hsends : d.sends = c.sends) :
    Covered d where
  single := by
    rw [hsends]
    exact h.single
  used := by
    rw [hsends, hring]
    exact h.used
  sending := by
    rw [hsends, hsending]
    exact h.sending

/-- `PostSend` with no send outstanding and the sending flag up. -/
theorem covered_postSend {s : Session} {d : Conn} (result : PostResult)
    (hsends : d.sends = []) (hsending : s.sending = true) :
    Covered (d.after (s.postSend result)) ∧
      (s.postSend result).session.sendBuffer = s.sendBuffer := by
  have hnone : forall o : Outcome, startedSends o.calls = [] -> Covered (d.after o) := by
    intro o ho
    have hempty : (d.after o).sends = [] := by
      show d.sends ++ startedSends o.calls = []
      rw [hsends, ho]
      rfl
    exact {
      single := by
        rw [hempty]
        exact Nat.zero_le 1
      used := fun buf hbuf => by
        rw [hempty] at hbuf
        cases hbuf
      sending := fun hne => absurd hempty hne }
  rcases postSend_cases s result with
    ⟨heq, _⟩ | ⟨heq, _, _⟩ | ⟨buf, _, _, hbuf, _, heq⟩ | ⟨buf, _, _, _, heq⟩
  · rw [heq]
    exact ⟨hnone _ rfl, rfl⟩
  · rw [heq]
    exact ⟨hnone _ rfl, rfl⟩
  · rw [heq]
    refine ⟨?_, rfl⟩
    have hone : (d.after ⟨{ s with sendWsaBuf := buf, pendingIo := s.pendingIo + 1 },
        [.wsaSend buf .started]⟩).sends = [buf] := by
      show d.sends ++ [buf] = [buf]
      rw [hsends]
      rfl
    exact {
      single := by
        rw [hone]
        exact Nat.le_refl 1
      used := fun b hb => by
        rw [hone] at hb
        rw [List.mem_singleton.mp hb, hbuf]
        exact s.sendBuffer.getLinearUsedSize_le
      sending := fun _ => hsending }
  · rw [heq]
    exact ⟨hnone _ rfl, rfl⟩

/-- What one event does to the room in the ring. -/
structure RoomStep (c d : Conn) (texts : List (List UInt8)) : Prop where
  covered : Covered d
  used : d.session.sendBuffer.getUsedSize ≤
    c.session.sendBuffer.getUsedSize + needed texts
  taken : c.session.sendBuffer.getUsedSize + needed texts < BUFFER_SIZE ->
    d.accepted = c.accepted ++ texts

theorem RoomStep.of_same {c d : Conn} (hcovered : Covered d)
    (hused : d.session.sendBuffer.getUsedSize ≤ c.session.sendBuffer.getUsedSize)
    (haccepted : d.accepted = c.accepted) : RoomStep c d [] where
  covered := hcovered
  used := hused
  taken := fun _ => by rw [haccepted, List.append_nil]

theorem Covered.send {c : Conn} (h : Covered c) (data : List UInt8)
    (result : PostResult) :
    RoomStep c ({ c with
      accepted :=
        if c.session.sendBuffer.getEmptySize < data.length then c.accepted
        else c.accepted ++ [data] }.after (c.session.send data result)) [data] := by
  have hneeded : needed [data] = data.length := by
    simp [needed]
  have htotal := c.session.sendBuffer.getUsedSize_add_getEmptySize
  rcases send_cases c.session data result with
    ⟨hover, heq⟩ | ⟨hfits, hbusy, heq⟩ | ⟨hfits, hidle, heq⟩
  · rw [heq, if_pos hover]
    exact {
      covered := h.quiet rfl rfl (by simp [Conn.after, startedSends])
      used := Nat.le_add_right _ _
      taken := fun hroom => by omega }
  · rw [heq, if_neg (by omega)]
    have hsize := c.session.sendBuffer.getUsedSize_write_moveTail hfits
    have hsends : ({ c with accepted := c.accepted ++ [data] }.after
        ⟨{ c.session with
            sendBuffer := (c.session.sendBuffer.write data).1.moveTail data.length },
          []⟩).sends = c.sends := by
      simp [Conn.after, startedSends]
    exact {
      covered := {
        single := by
          rw [hsends]
          exact h.single
        used := fun buf hbuf => by
          rw [hsends] at hbuf
          have hle := h.used buf hbuf
          show buf.len ≤ ((c.session.sendBuffer.write data).1.moveTail
            data.length).getUsedSize
          omega
        sending := fun _ => hbusy }
      used := by
        show ((c.session.sendBuffer.write data).1.moveTail data.length).getUsedSize ≤ _
        omega
      taken := fun _ => rfl }
  · rw [if_neg (by omega), heq]
    have hsize := c.session.sendBuffer.getUsedSize_write_moveTail hfits
    have hsends : c.sends = [] := by
      by_contra hne
      rw [h.sending hne] at hidle
      cases hidle
    have hpost := covered_postSend
      (s := { c.session with
        sendBuffer := (c.session.sendBuffer.write data).1.moveTail data.length
        sending := true })
      (d := { c with accepted := c.accepted ++ [data] }) result hsends rfl
    exact {
      covered := hpost.left
      used := by
        show (Session.postSend _ result).session.sendBuffer.getUsedSize ≤ _
        rw [hpost.right]
        show ((c.session.sendBuffer.write data).1.moveTail data.length).getUsedSize ≤ _
        omega
      taken := fun _ => rfl }

/-- A completed send only makes room. -/
theorem Covered.onSend {c d : Conn} {buf : WsaBuf} {bytes : Nat} (h : Covered c)
    (hbuf : buf ∈ c.sends) (hlen : bytes ≤ buf.len) (result : PostResult)
    (hsends : d.sends = []) (haccepted : d.accepted = c.accepted) :
    RoomStep c (d.after (c.session.onSend bytes result)) [] := by
  have hbytes := hlen.trans (h.used buf hbuf)
  have hsize := c.session.sendBuffer.getUsedSize_moveHead hbytes
  have hsending := h.sending (List.ne_nil_of_mem hbuf)
  rcases onSend_cases c.session bytes result with ⟨_, heq⟩ | ⟨_, heq⟩
  · rw [heq]
    have hpost := covered_postSend
      (s := { c.session with
        sendBuffer := c.session.sendBuffer.moveHead bytes }) result hsends hsending
    refine RoomStep.of_same hpost.left ?_ haccepted
    show (Session.postSend _ result).session.sendBuffer.getUsedSize ≤ _
    rw [hpost.right]
    show (c.session.sendBuffer.moveHead bytes).getUsedSize ≤ _
    omega
  · rw [heq]
    have hnone : (d.after ⟨{ c.session with
        sendBuffer := c.session.sendBuffer.moveHead bytes
        sending := false }, []⟩).sends = [] := by
      show d.sends ++ [] = []
      rw [hsends]
      rfl
    refine RoomStep.of_same ?_ ?_ haccepted
    · exact {
        single := by
          rw [hnone]
          exact Nat.zero_le 1
        used := fun b hb => by
          rw [hnone] at hb
          cases hb
        sending := fun hne => absurd hnone hne }
    · show (c.session.sendBuffer.moveHead bytes).getUsedSize ≤ _
      omega

/-- Steps on the receiving side. -/
theorem Covered.recvCall {s : Session} {c d : Conn} {o : Outcome} (h : Covered c)
    (ho : RecvCall s o) (hring : s.sendBuffer = c.session.sendBuffer)
    (hsending : s.sending = c.session.sending) (hsends : d.sends = c.sends)
    (haccepted : d.accepted = c.accepted) : RoomStep c (d.after o) [] := by
  have hsame : (d.after o).sends = c.sends := by
    show d.sends ++ startedSends o.calls = c.sends
    rw [ho.sends, List.append_nil, hsends]
  refine RoomStep.of_same
    (h.quiet (ho.sendBuffer.trans hring) (ho.sending.trans hsending) hsame) ?_ haccepted
  show o.session.sendBuffer.getUsedSize ≤ _
  rw [ho.sendBuffer, hring]

theorem room_step {c d : Conn} {e : Conn.Event} (h : Covered c)
    (hstep : c.step e = some d) : RoomStep c d (sentBy e) := by
  rcases Conn.step_cases hstep with
    ⟨result, rfl, _, rfl⟩ |
    ⟨ok, bytes, junk, result, buf, rest, rfl, _, _, rfl⟩ |
    ⟨ok, bytes, result, buf, rest, rfl, hsends, hlen, rfl⟩ |
    ⟨data, result, rfl, rfl⟩ | ⟨rfl, _, rfl⟩
  · exact h.recvCall (d := { c with accepting := false })
      (postRecv_recvCall c.session result) rfl rfl rfl rfl
  · exact h.recvCall (d := { c with recvs := rest, handlers := c.handlers + 1 })
      (handleCompletion_recv_recvCall (c.receive buf bytes) ok bytes.length junk
        result) rfl rfl rfl rfl
  · have hbuf : buf ∈ c.sends := by
      rw [hsends]
      exact List.mem_cons_self
    have hrest : rest = [] := by
      have hsingle := h.single
      rw [hsends, List.length_cons] at hsingle
      exact List.length_eq_zero_iff.mp (by omega)
    cases ok with
    | true => exact h.onSend hbuf hlen result hrest rfl
    | false =>
        -- a failed send closes the session and takes nothing from the ring
        refine RoomStep.of_same ?_ (Nat.le_refl _) rfl
        have hnone : (({ c with sends := rest, handlers := c.handlers + 1 } : Conn).after
            c.session.close).sends = [] := by
          show rest ++ [] = []
          rw [hrest]
          rfl
        exact {
          single := by
            show (({ c with sends := rest, handlers := c.handlers + 1 } : Conn).after
              c.session.close).sends.length ≤ 1
            rw [hnone]
            exact Nat.zero_le 1
          used := fun b hb => by
            have hmem : b ∈ (({ c with
              sends := rest, handlers := c.handlers + 1 } : Conn).after
                c.session.close).sends := hb
            rw [hnone] at hmem
            cases hmem
          sending := fun hne => absurd hnone hne }
  · exact h.send data result
  · exact RoomStep.of_same (h.quiet rfl rfl rfl) (Nat.le_refl _) rfl

theorem needed_append (a b : List (List UInt8)) :
    needed (a ++ b) = needed a + needed b := by
  unfold needed
  rw [List.map_append, List.sum_append]

/-- Messages that fit together are all taken, whatever else happens. -/
theorem accepted_of_room {later : List Conn.Event} :
    forall {c d : Conn}, Covered c ->
      c.session.sendBuffer.getUsedSize + needed (sent later) < BUFFER_SIZE ->
      runFrom Conn.step c later = some d -> d.accepted = c.accepted ++ sent later := by
  induction later with
  | nil =>
      intro c d _ _ hrun
      cases hrun
      exact (List.append_nil _).symm
  | cons e rest ih =>
      intro c d hcovered hroom hrun
      have hsplit : sent (e :: rest) = sentBy e ++ sent rest := rfl
      rw [hsplit, needed_append] at hroom
      rcases runFrom_cons_some hrun with ⟨u, hstep, hrest⟩
      have hfirst := room_step hcovered hstep
      have hused := hfirst.used
      rw [ih hfirst.covered (by omega) hrest, hfirst.taken (by omega), hsplit,
        List.append_assoc]

/-!
# Without completions
-/

/-- Hand over the messages one after the other. -/
def sends (texts : List (List UInt8)) : List Conn.Event :=
  texts.map fun data => .send data .started

theorem sent_sends (texts : List (List UInt8)) : sent (sends texts) = texts := by
  unfold sent sends
  rw [List.flatMap_map]
  exact List.flatMap_singleton' texts

/-- A run takes no more messages than it hands over. -/
theorem length_accepted_le {later : List Conn.Event} :
    forall {c d : Conn}, runFrom Conn.step c later = some d ->
      d.accepted.length ≤ c.accepted.length + (sent later).length := by
  induction later with
  | nil =>
      intro c d hrun
      cases hrun
      exact Nat.le_refl _
  | cons e rest ih =>
      intro c d hrun
      rcases runFrom_cons_some hrun with ⟨u, hstep, hrest⟩
      have hlater := ih hrest
      have hfirst : u.accepted.length ≤ c.accepted.length + (sentBy e).length := by
        rcases Conn.step_cases hstep with
          ⟨result, rfl, _, rfl⟩ |
          ⟨ok, bytes, junk, result, buf, rest, rfl, _, _, rfl⟩ |
          ⟨ok, bytes, result, buf, rest, rfl, _, _, rfl⟩ |
          ⟨data, result, rfl, rfl⟩ | ⟨rfl, _, rfl⟩
        · exact Nat.le_refl _
        · exact Nat.le_refl _
        · exact Nat.le_refl _
        · show (if c.session.sendBuffer.getEmptySize < data.length then c.accepted
            else c.accepted ++ [data]).length ≤ c.accepted.length + 1
          split
          · exact Nat.le_add_right _ _
          · rw [List.length_append, List.length_singleton]
        · exact Nat.le_refl _
      have hsplit : (sent (e :: rest)).length = (sentBy e).length + (sent rest).length :=
        List.length_append
      omega

/-- If nothing completes, messages that are all taken fit together. -/
theorem room_of_accepted {texts : List (List UInt8)} :
    forall {c d : Conn}, runFrom Conn.step c (sends texts) = some d ->
      d.accepted = c.accepted ++ texts ->
      c.session.sendBuffer.getUsedSize + needed texts < BUFFER_SIZE := by
  induction texts with
  | nil =>
      intro c d _ _
      exact c.session.sendBuffer.getUsedSize_lt
  | cons data rest ih =>
      intro c d hrun haccepted
      have hrun' : runFrom Conn.step c (.send data .started :: sends rest) = some d := hrun
      rcases runFrom_cons_some hrun' with ⟨u, hstep, hrest⟩
      have hlater := length_accepted_le hrest
      rw [sent_sends, haccepted, List.length_append, List.length_cons] at hlater
      cases hstep
      have hfits : ¬ c.session.sendBuffer.getEmptySize < data.length := by
        intro hover
        have hsame : (if c.session.sendBuffer.getEmptySize < data.length then c.accepted
          else c.accepted ++ [data]) = c.accepted := if_pos hover
        have hbad : c.accepted.length + (rest.length + 1) ≤
            (if c.session.sendBuffer.getEmptySize < data.length then c.accepted
              else c.accepted ++ [data]).length + rest.length := hlater
        rw [hsame] at hbad
        omega
      have htaken : d.accepted = (if c.session.sendBuffer.getEmptySize < data.length
          then c.accepted else c.accepted ++ [data]) ++ rest := by
        rw [if_neg hfits, haccepted, List.append_assoc]
        rfl
      have hroom := ih hrest htaken
      have hcontents := congrArg List.length
        (contents_send c.session data .started)
      rw [if_neg hfits, List.length_append, RingBuffer.length_contents,
        RingBuffer.length_contents] at hcontents
      have hused : (c.session.send data .started).session.sendBuffer.getUsedSize +
          needed rest < BUFFER_SIZE := hroom
      have hneeded : needed (data :: rest) = data.length + needed rest := by
        unfold needed
        rw [List.map_cons, List.sum_cons]
      omega

theorem run_sends (texts : List (List UInt8)) :
    forall c : Conn, exists d, runFrom Conn.step c (sends texts) = some d := by
  induction texts with
  | nil =>
      intro c
      exact ⟨c, rfl⟩
  | cons data rest ih =>
      intro c
      exact ih _

/-- Messages are all taken in every case exactly if they fit together. -/
theorem sends_accepted_iff {c : Conn} (h : Covered c) (texts : List (List UInt8)) :
    (forall later d, runFrom Conn.step c later = some d -> sent later = texts ->
      d.accepted = c.accepted ++ texts) <->
    c.session.sendBuffer.getUsedSize + needed texts < BUFFER_SIZE := by
  constructor
  · intro hall
    rcases run_sends texts c with ⟨d, hrun⟩
    exact room_of_accepted hrun (hall _ d hrun (sent_sends texts))
  · intro hroom later d hrun hsent
    rw [← hsent] at hroom ⊢
    exact accepted_of_room h hroom hrun

end Sessions
end ContentServer
