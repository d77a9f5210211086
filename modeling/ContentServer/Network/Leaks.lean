import ContentServer.Network.SlotSafety

/-!
# Leaked sessions

`Destroy` is only reached from a completion handler.  A failure that closes the
session inside a handler, or while something is outstanding, is followed by a
`CompleteIO` that finds the counter at zero.  A failure of `WSARecv` or
`WSASend` itself produces no completion: when it closes a session that has
nothing outstanding and no handler in progress, nobody destroys the session.
-/

namespace ContentServer
namespace Network

open Buffers Foundation Protocol Sessions Registry SessionManager

/-- The session in the slot is out of the registry and the slot is free. -/
structure Removed (sv : Server) (slot : Slot) : Prop where
  byId : sv.manager.byId.lookup (sv.manager.session slot).id = none
  byName : sv.manager.byName.lookup (sv.manager.session slot).name ≠
    some (sv.manager.session slot).id
  byUserId : sv.manager.byUserId.lookup (sv.manager.session slot).userId ≠
    some (sv.manager.session slot).id
  free : slot ∈ sv.manager.pool.freeList

/-- A closing session with nothing left to happen has been removed. -/
def NoLeak (sv : Server) : Prop :=
  forall slot, (sv.manager.session slot).closing = true -> (sv.io slot).Quiet ->
    Removed sv slot

/-- `Send` gets as far as `WSASend`, which fails at once. -/
structure SendFails (s : Session) (data : List UInt8) (result : PostResult) :
    Prop where
  isOpen : s.closing = false
  idle : s.sending = false
  fits : data.length ≤ s.sendBuffer.getEmptySize
  some : 0 < s.sendBuffer.getUsedSize + data.length
  failed : result = .failed

/-- An immediate failure that strikes a session with nothing outstanding. -/
def Strands (sv : Server) : Server.Event -> Prop
  | .accept _ result => result = .failed ∧ sv.manager.pool.freeList ≠ []
  | .sendTo id data result =>
      exists slot, sv.manager.byId.lookup id = some slot ∧
        (sv.io slot).Quiet ∧ SendFails (sv.manager.session slot) data result
  | .worker _ _ => False
  | .destroy _ => False
  | .setName _ _ => False
  | .setUserId _ _ => False

/-- The registry invariants hold along with slot safety. -/
structure Sound (userIdOf : List UInt8 -> Nat) (sv : Server) : Prop where
  safe : SlotSafe sv
  consistent : Consistent userIdOf sv.directory

theorem sound_preserved {userIdOf : List UInt8 -> Nat}
    (hpos : forall name, userIdOf name ≠ 0)
    (hinj : Function.Injective userIdOf) :
    Preserved (Server.step userIdOf) (Sound userIdOf) := by
  intro sv event sw h hstep
  refine ⟨slotSafe_preserved userIdOf sv event sw h.safe hstep, ?_⟩
  rcases Server.step_cases hstep with
    ⟨socket, result, rfl, rfl⟩ | ⟨slot, e, c, rfl, _, hconn, rfl⟩ |
    ⟨slot, rfl, hdestroying, rfl⟩ |
    ⟨id, data, result, rfl, ⟨_, rfl⟩ | ⟨slot, c, _, hconn, rfl⟩⟩ |
    ⟨login, d, _, hd, rfl⟩
  · rcases sv.accept_cases socket result with
      ⟨_, heq⟩ | ⟨slot, m, c, _, hc, hconn, heq⟩
    · rw [heq]
      exact h.consistent
    · rw [heq]
      have hsame := (postRecv_recvCall c.session result).owner
      rw [hconn] at hsame ⊢
      exact (h.consistent.create hc).put hsame
  · exact h.consistent.put (sameOwner_step hconn)
  · exact h.consistent.destroy
      (h.safe.live fun hquiet => hdestroying hquiet.destroying)
  · exact h.consistent
  · exact h.consistent.put (sameOwner_step hconn)
  · exact consistent_preserved hpos hinj _ _ _ h.consistent hd

theorem Sound.start {userIdOf : List UInt8 -> Nat} (shards : Nat) :
    Sound userIdOf (.start shards) where
  safe := SlotSafe.start shards
  consistent := Consistent.start shards

/-- Every free slot counts as removed, so leaks can only be registered. -/
theorem noLeak_iff {userIdOf : List UInt8 -> Nat} {sv : Server}
    (h : Sound userIdOf sv) :
    NoLeak sv <-> forall slot,
      sv.manager.byId.lookup (sv.manager.session slot).id = some slot ->
      (sv.manager.session slot).closing = true -> ¬ (sv.io slot).Quiet := by
  constructor
  · intro hno slot hlive hclosing hquiet
    have hremoved := hno slot hclosing hquiet
    rw [hremoved.byId] at hlive
    cases hlive
  · intro hwatch slot hclosing hquiet
    rcases h.consistent.slots.covered slot with hfree | hlive
    · have hgone := h.consistent.slots.free slot hfree
      refine ⟨hgone, fun hname => ?_, fun huser => ?_, hfree⟩
      · rcases (h.consistent.lookup_name _ _).mp hname with ⟨found, hfound, _⟩
        rw [hgone] at hfound
        cases hfound
      · rcases (h.consistent.lookup_user _ _).mp huser with ⟨⟨found, hfound⟩, _⟩
        rw [hgone] at hfound
        cases hfound
    · exact absurd hquiet (hwatch slot hlive hclosing)

/-!
# When a send closes the session
-/

theorem send_closes_iff {s : Session} (hopen : s.closing = false)
    (data : List UInt8) (result : PostResult) :
    (s.send data result).session.closing = true <-> SendFails s data result := by
  have hnot : ¬ s.closing = true := by
    rw [hopen]
    exact Bool.false_ne_true
  rcases send_cases s data result with
    ⟨hover, heq⟩ | ⟨hfits, hbusy, heq⟩ | ⟨hfits, hidle, heq⟩
  · rw [heq]
    constructor
    · intro hclosing
      exact absurd hclosing hnot
    · intro hfails
      exact absurd hfails.fits (Nat.not_le.mpr hover)
  · rw [heq]
    constructor
    · intro hclosing
      exact absurd hclosing hnot
    · intro hfails
      rw [hfails.idle] at hbusy
      cases hbusy
  · have hused := s.sendBuffer.getUsedSize_write_moveTail hfits
    rw [heq]
    rcases postSend_cases { s with
        sendBuffer := (s.sendBuffer.write data).1.moveTail data.length
        sending := true } result with
      ⟨_, hcontra⟩ | ⟨hpost, _, hempty⟩ | ⟨buf, _, hstarted, _, _, hpost⟩ |
      ⟨buf, _, hfailed, hsome, hpost⟩
    · exact absurd hcontra hnot
    · rw [hpost]
      constructor
      · intro hclosing
        exact absurd hclosing hnot
      · intro hfails
        have hpos := hfails.some
        rw [← hused] at hpos
        exact absurd hempty (Nat.ne_of_gt hpos)
    · rw [hpost]
      constructor
      · intro hclosing
        exact absurd hclosing hnot
      · intro hfails
        rw [hfails.failed] at hstarted
        cases hstarted
    · rw [hpost]
      constructor
      · intro _
        replace hsome : 0 < ((s.sendBuffer.write data).1.moveTail
          data.length).getUsedSize := hsome
        rw [hused] at hsome
        exact ⟨hopen, hidle, hfits, hsome, hfailed⟩
      · intro _
        rfl

/-- A call that closes, or finds the session closing, starts no send. -/
theorem startedSends_of_closing {s : Session} {data : List UInt8}
    {result : PostResult} (h : (s.send data result).session.closing = true) :
    startedSends (s.send data result).calls = [] := by
  cases hclosing : s.closing with
  | true => exact ((send_sendCall s data result).noPost hclosing).right
  | false =>
      have hfailed := ((send_closes_iff hclosing data result).mp h).failed
      subst hfailed
      rcases send_cases s data .failed with ⟨_, heq⟩ | ⟨_, _, heq⟩ | ⟨_, _, heq⟩
      · rw [heq]
        rfl
      · rw [heq]
        rfl
      · rw [heq]
        rcases postSend_cases { s with
            sendBuffer := (s.sendBuffer.write data).1.moveTail data.length
            sending := true } .failed with
          ⟨hpost, _⟩ | ⟨hpost, _, _⟩ | ⟨buf, _, hcontra, _⟩ |
          ⟨buf, _, _, _, hpost⟩
        · rw [hpost]
          rfl
        · rw [hpost]
          rfl
        · cases hcontra
        · rw [hpost]
          rfl

/-!
# One step
-/

/-- Every registered session that is closing still has something left. -/
def Watched (sv : Server) : Prop :=
  forall slot, sv.manager.byId.lookup (sv.manager.session slot).id = some slot ->
    (sv.manager.session slot).closing = true -> ¬ (sv.io slot).Quiet

/-- After a step in one slot, only that slot has to be looked at. -/
theorem watched_put_of_others {sv : Server} {slot : Slot} {c : Conn}
    (h : forall other, other ≠ slot ->
      sv.manager.byId.lookup (sv.manager.session other).id = some other ->
      (sv.manager.session other).closing = true -> ¬ (sv.io other).Quiet)
    (hlive : sv.manager.byId.lookup (sv.manager.session slot).id = some slot)
    (hid : c.session.id = (sv.manager.session slot).id) :
    Watched (sv.put slot c) <->
      (c.session.closing = true -> ¬ c.toIo.Quiet) := by
  have hio : (sv.put slot c).io slot = c.toIo := Function.update_self ..
  have hsession : (sv.put slot c).manager.session slot = c.session :=
    session_put_self sv.manager slot c.session
  constructor
  · intro hwatch hclosing
    have hslot := hwatch slot
    rw [hio, hsession] at hslot
    refine hslot ?_ hclosing
    rw [hid]
    exact hlive
  · intro hslot other
    by_cases hother : other = slot
    · subst hother
      rw [hio, hsession]
      intro _
      exact hslot
    · have hsame : (sv.put slot c).manager.session other =
          sv.manager.session other := session_put_of_ne sv.manager c.session hother
      have hioSame : (sv.put slot c).io other = sv.io other :=
        Function.update_of_ne hother ..
      rw [hioSame, hsame]
      exact h other hother

theorem watched_put {sv : Server} (h : Watched sv) {slot : Slot} {c : Conn}
    (hlive : sv.manager.byId.lookup (sv.manager.session slot).id = some slot)
    (hid : c.session.id = (sv.manager.session slot).id) :
    Watched (sv.put slot c) <->
      (c.session.closing = true -> ¬ c.toIo.Quiet) :=
  watched_put_of_others (fun other _ => h other) hlive hid

/-- A handler's own step leaves its `CompleteIO` or its `Destroy` to be done. -/
theorem not_quiet_after_worker {c d : Conn} {e : Conn.Event} (h : Accounted c)
    (hworker : e.ofWorker = true) (hstep : c.step e = some d)
    (hclosing : d.session.closing = true) : ¬ d.toIo.Quiet := by
  intro hquiet
  rcases Conn.step_cases hstep with
    ⟨result, rfl, _, _⟩ |
    ⟨ok, bytes, junk, result, buf, rest, rfl, _, _, rfl⟩ |
    ⟨ok, bytes, result, buf, rest, rfl, _, _, rfl⟩ |
    ⟨data, result, rfl, _⟩ | ⟨rfl, hpos, rfl⟩
  · cases hworker
  · exact absurd hquiet.handlers (Nat.succ_ne_zero c.handlers)
  · exact absurd hquiet.handlers (Nat.succ_ne_zero c.handlers)
  · cases hworker
  · -- the counter was at one, so this `CompleteIO` has returned true
    have hrecvs : c.recvs = [] := hquiet.recvs
    have hsends : c.sends = [] := hquiet.sends
    have hhandlers : c.handlers - 1 = 0 := hquiet.handlers
    have hdestroying :
        c.destroying + (if c.session.completeIo.2 then 1 else 0) = 0 :=
      hquiet.destroying
    have hone : c.handlers = 1 := by omega
    have hpending := h.pendingIo
    rw [hrecvs, hsends, hone] at hpending
    replace hpending : c.session.pendingIo = 1 := hpending
    have hdone : c.session.completeIo.2 = true := by
      show (c.session.closing && c.session.pendingIo - 1 == 0) = true
      rw [hpending, show c.session.closing = true from hclosing]
      rfl
    rw [hdone, if_pos rfl] at hdestroying
    exact Nat.succ_ne_zero _ hdestroying

/-- A send leaves a session closing and quiet exactly if it strands it. -/
theorem send_quiet_iff {c d : Conn} {data : List UInt8} {result : PostResult}
    (h : c.session.closing = true -> ¬ c.toIo.Quiet)
    (hstep : c.step (.send data result) = some d) :
    (d.session.closing = true -> ¬ d.toIo.Quiet) <->
      ¬ (c.toIo.Quiet ∧ SendFails c.session data result) := by
  cases hstep
  have hcall := send_sendCall c.session data result
  have hquiet : (c.session.send data result).session.closing = true ->
      (({ c with
        accepted :=
          if c.session.sendBuffer.getEmptySize < data.length then c.accepted
          else c.accepted ++ [data] }.after (c.session.send data result)).toIo.Quiet
        <-> c.toIo.Quiet) := by
    intro hclosing
    have hrecvs : c.recvs ++ startedRecvs (c.session.send data result).calls =
        c.recvs := by
      rw [hcall.recvs, List.append_nil]
    have hsends : c.sends ++ startedSends (c.session.send data result).calls =
        c.sends := by
      rw [startedSends_of_closing hclosing, List.append_nil]
    constructor
    · intro hq
      exact ⟨hrecvs.symm.trans hq.recvs, hsends.symm.trans hq.sends, hq.handlers,
        hq.destroying⟩
    · intro hq
      exact ⟨hrecvs.trans hq.recvs, hsends.trans hq.sends, hq.handlers,
        hq.destroying⟩
  constructor
  · intro hnot hstrands
    have hclosing := (send_closes_iff hstrands.right.isOpen data result).mpr
      hstrands.right
    exact hnot hclosing ((hquiet hclosing).mpr hstrands.left)
  · intro hnot hclosing hq
    have hbefore := (hquiet hclosing).mp hq
    cases hflag : c.session.closing with
    | true => exact h hflag hbefore
    | false =>
        exact hnot ⟨hbefore, (send_closes_iff hflag data result).mp hclosing⟩

/-- A new connection is stranded exactly if its first receive fails. -/
theorem fresh_quiet_iff (s : Session) (socket : Nat) (index : Slot)
    (id handler : Nat) (result : PostResult) :
    let c : Conn := { Conn.fresh s socket index id handler with accepting := false }
    ((c.after (c.session.postRecv result)).session.closing = true ->
      ¬ (c.after (c.session.postRecv result)).toIo.Quiet) <->
        result ≠ .failed := by
  intro c
  have hempty : c.session.recvBuffer.getLinearEmptySize = 4095 := rfl
  rcases postRecv_cases c.session result with
    ⟨_, hcontra | hfull⟩ | ⟨buf, _, hstarted, _, _, heq⟩ |
    ⟨buf, _, hfailed, heq⟩
  · cases hcontra
  · rw [hempty] at hfull
    cases hfull
  · rw [heq]
    constructor
    · intro _ hcontra
      rw [hcontra] at hstarted
      cases hstarted
    · intro _ hclosing
      cases hclosing
  · rw [heq]
    constructor
    · intro hnot
      exact absurd ⟨rfl, rfl, rfl, rfl⟩ (hnot rfl)
    · intro hne
      exact absurd hfailed hne

theorem watched_accept {sv : Server} (hsafe : SlotSafe sv) (h : Watched sv)
    (socket : Nat) (result : PostResult) :
    Watched (sv.accept socket result) <->
      ¬ (result = .failed ∧ sv.manager.pool.freeList ≠ []) := by
  rcases sv.accept_cases socket result with
    ⟨hnone, heq⟩ | ⟨slot, m, c, _, hc, hconn, heq⟩
  · rw [heq]
    constructor
    · intro _ hstrands
      exact hstrands.right ((create_eq_none_iff sv.manager socket).mp hnone)
    · intro _
      exact h
  · have hslot : slot ∈ sv.manager.pool.freeList := by
      rw [hc.freeList]
      exact List.mem_cons_self
    have hfree : sv.manager.pool.freeList ≠ [] := List.ne_nil_of_mem hslot
    let created : Server := { sv with
      directory := { sv.directory with
        manager := m
        created := sv.manager.nextId :: sv.directory.created } }
    have hfresh := hconn.trans (hsafe.fresh hc false)
    have hsame := (postRecv_recvCall c.session result).owner
    have hsession : c.session = m.session slot := by rw [hconn]
    have hother : forall other, other ≠ slot ->
        created.manager.byId.lookup (created.manager.session other).id =
            some other ->
          (created.manager.session other).closing = true ->
          ¬ (created.io other).Quiet := by
      intro other hne hlive hclosing
      replace hlive : m.byId.lookup (m.session other).id = some other := hlive
      replace hclosing : (m.session other).closing = true := hclosing
      rw [hc.others other hne] at hlive hclosing
      rw [hc.byId, AList.lookup_insert_ne
        (Nat.ne_of_lt (hsafe.issued.slots.seen other))] at hlive
      exact h other hlive hclosing
    have hput : Watched (created.put slot (c.after (c.session.postRecv result))) <->
        ((c.after (c.session.postRecv result)).session.closing = true ->
          ¬ (c.after (c.session.postRecv result)).toIo.Quiet) := by
      apply watched_put_of_others hother
      · show m.byId.lookup (m.session slot).id = some slot
        rw [hc.occupant, hc.byId]
        exact AList.lookup_insert _
      · show (c.session.postRecv result).session.id = (m.session slot).id
        rw [hsame.id, hsession]
    rw [heq]
    refine hput.trans ?_
    have hquiet := fresh_quiet_iff (sv.manager.session slot) socket slot
      sv.manager.nextId (sv.manager.nextId % sv.manager.shardCount) result
    rw [← hfresh] at hquiet
    refine hquiet.trans ?_
    constructor
    · intro hne hstrands
      exact hne hstrands.left
    · intro hnot hfailed
      exact hnot ⟨hfailed, hfree⟩

theorem watched_destroy {sv : Server} (hsafe : SlotSafe sv) (h : Watched sv)
    {slot : Slot} (hdestroying : (sv.io slot).destroying ≠ 0) :
    Watched {
      directory := { sv.directory with manager := sv.manager.destroy slot }
      io := Function.update sv.io slot
        { sv.io slot with destroying := (sv.io slot).destroying - 1 }
      destroyed := (sv.manager.session slot).id :: sv.destroyed } := by
  have hlive := hsafe.live fun hquiet => hdestroying hquiet.destroying
  intro other hother hclosing
  rcases hsafe.issued.live_of_destroy hlive hother with ⟨hne, hstill⟩
  have hslot : other ≠ slot := by
    intro hsame
    subst hsame
    exact hne rfl
  show ¬ (Function.update sv.io slot _ other).Quiet
  rw [Function.update_of_ne hslot]
  exact h other hstill hclosing

theorem watched_login {sv : Server} (h : Watched sv) {d : Directory}
    (hlogin : Server.LoggedIn sv.directory d) :
    Watched { sv with directory := d } := by
  intro slot hlive hclosing
  rcases hlogin.session slot with ⟨name, userId, hsession⟩
  replace hlive : d.manager.byId.lookup (d.manager.session slot).id =
    some slot := hlive
  replace hclosing : (d.manager.session slot).closing = true := hclosing
  rw [hlogin.byId, hsession] at hlive
  rw [hsession] at hclosing
  exact h slot hlive hclosing

/-- One step keeps closing sessions watched unless it strands one. -/
theorem watched_step {userIdOf : List UInt8 -> Nat} {sv sw : Server}
    {event : Server.Event} (hsafe : SlotSafe sv) (h : Watched sv)
    (hstep : sv.step userIdOf event = some sw) :
    Watched sw <-> ¬ Strands sv event := by
  rcases Server.step_cases hstep with
    ⟨socket, result, rfl, rfl⟩ | ⟨slot, e, c, rfl, hworker, hconn, rfl⟩ |
    ⟨slot, rfl, hdestroying, rfl⟩ |
    ⟨id, data, result, rfl, ⟨hnone, rfl⟩ | ⟨slot, c, hlive, hconn, rfl⟩⟩ |
    ⟨login, d, hlogin, hd, rfl⟩
  · exact watched_accept hsafe h socket result
  · have hlive := hsafe.live (not_quiet_of_worker hworker hconn)
    have hquiet := not_quiet_after_worker (hsafe.conns slot) hworker hconn
    rw [watched_put h hlive (sameOwner_step hconn).id]
    exact ⟨fun _ hcontra => hcontra, fun _ => hquiet⟩
  · exact ⟨fun _ hcontra => hcontra, fun _ => watched_destroy hsafe h hdestroying⟩
  · constructor
    · intro _ hstrands
      rcases hstrands with ⟨slot, hslot, _⟩
      rw [hnone] at hslot
      cases hslot
    · intro _
      exact h
  · have hid := (hsafe.issued.slots.owner id slot hlive).left
    have hlive' := hlive
    rw [← hid] at hlive'
    rw [watched_put h hlive' (sameOwner_step hconn).id,
      send_quiet_iff (h slot hlive') hconn, not_iff_not]
    constructor
    · intro hstrands
      exact ⟨slot, hlive, hstrands⟩
    · intro hstrands
      rcases hstrands with ⟨found, hfound, hquiet⟩
      rw [hlive] at hfound
      cases hfound
      exact hquiet
  · have hkept := watched_login h (Server.loggedIn_of_step hlogin hd)
    cases event with
    | setName id name => exact ⟨fun _ hcontra => hcontra, fun _ => hkept⟩
    | setUserId id userId => exact ⟨fun _ hcontra => hcontra, fun _ => hkept⟩
    | accept socket result => cases hlogin
    | worker slot e => cases hlogin
    | destroy slot => cases hlogin
    | sendTo id data result => cases hlogin

/-!
# The exact condition
-/

/--
No closing session is leaked in any state of a run exactly when no immediate
failure of a receive or a send strikes a session that has nothing outstanding
and no handler in progress.
-/
theorem no_leak_iff {userIdOf : List UInt8 -> Nat}
    (hpos : forall name, userIdOf name ≠ 0)
    (hinj : Function.Injective userIdOf) {shards : Nat}
    {events : List Server.Event} {sv : Server}
    (hrun : runFrom (Server.step userIdOf) (.start shards) events = some sv) :
    (forall sw, Visits (Server.step userIdOf) (.start shards) events sw ->
      NoLeak sw) <->
    EveryStep (Server.step userIdOf) (fun sw event => ¬ Strands sw event)
      (.start shards) events := by
  refine visits_iff_everyStep (sound_preserved hpos hinj) ?_ (Sound.start shards)
    ?_ hrun
  · intro u event v hu hnoLeak hstep
    have hv := sound_preserved hpos hinj u event v hu hstep
    rw [noLeak_iff hv]
    exact watched_step hu.safe ((noLeak_iff hu).mp hnoLeak) hstep
  · have hstart : Sound userIdOf (.start shards) := Sound.start shards
    rw [noLeak_iff hstart]
    intro slot hlive
    cases hlive

theorem no_leak_iff_visit :
    exists sv, runFrom (Server.step nameNumber) (.start 8) visitEvents = some sv ∧
      NoLeak sv := by
  have hrun : (runFrom (Server.step nameNumber) (.start 8) visitEvents).map
      (fun sv => sv.destroyed) = some [1] := by decide +kernel
  rcases Option.map_eq_some_iff.mp hrun with ⟨sv, hsv, _⟩
  have hpos : forall name, nameNumber name ≠ 0 := fun _ => Nat.succ_ne_zero _
  refine ⟨sv, hsv, (no_leak_iff hpos nameNumber_injective hsv).mpr ?_ sv
    (visits_last hsv)⟩
  -- both first receives start, and no other step of this run can strand
  have haccept : forall (u : Server) (socket : Nat),
      ¬ Strands u (.accept socket .started) := by
    intro u socket hstrands
    cases hstrands.left
  have hquiet : forall (u : Server) (event : Server.Event),
      Strands u event = False -> ¬ Strands u event := by
    intro u event hnever
    rw [hnever]
    exact fun hcontra => hcontra
  unfold visitEvents
  exact ⟨haccept _ 3, fun u _ => ⟨hquiet u _ rfl, fun u _ =>
    ⟨hquiet u _ rfl, fun u _ => ⟨hquiet u _ rfl, fun u _ =>
      ⟨haccept u 4, fun _ _ => trivial⟩⟩⟩⟩⟩

/-- The first receive of a connection fails at once. -/
theorem first_receive_failure_leaks :
    exists sv, runFrom (Server.step nameNumber) (.start 8)
        [.accept 3 .failed] = some sv ∧ ¬ NoLeak sv := by
  let slot : Slot := Session.constructed.index
  have hrun : (runFrom (Server.step nameNumber) (.start 8)
      [.accept 3 .failed]).map (fun sv =>
        ((sv.manager.session slot).closing,
          sv.manager.byId.lookup (sv.manager.session slot).id,
          (sv.io slot).recvs.length + (sv.io slot).sends.length +
            (sv.io slot).handlers + (sv.io slot).destroying)) =
      some (true, some slot, 0) := by decide +kernel
  rcases Option.map_eq_some_iff.mp hrun with ⟨sv, hsv, hstate⟩
  injection hstate with hclosing hrest
  injection hrest with hlive hzero
  refine ⟨sv, hsv, fun hnoLeak => ?_⟩
  have hquiet : (sv.io slot).Quiet := by
    refine ⟨List.length_eq_zero_iff.mp ?_, List.length_eq_zero_iff.mp ?_, ?_, ?_⟩ <;>
      omega
  have hgone := (hnoLeak slot hclosing hquiet).byId
  rw [hlive] at hgone
  cases hgone

end Network
end ContentServer
