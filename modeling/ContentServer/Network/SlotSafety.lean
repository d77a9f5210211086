import ContentServer.Network.Server

/-!
# Slot safety

Over whole runs of the server: the counter of every session is exact, work is
only ever outstanding for the session that lives in the slot, and `Destroy` is
called at most once for each session that `Create` made.
-/

namespace ContentServer
namespace Network

open Foundation Protocol Sessions Registry SessionManager

structure SlotSafe (sv : Server) : Prop where
  issued : Issued sv.directory
  conns : forall slot, Accounted (sv.conn slot)
  quiet : forall slot, slot ∈ sv.manager.pool.freeList -> (sv.io slot).Quiet
  once : sv.destroyed.Nodup
  gone : forall id, id ∈ sv.destroyed ->
    id ∈ sv.directory.created ∧ sv.manager.byId.lookup id = none

/-- Workers only act on slots where something is left. -/
theorem not_quiet_of_worker {c d : Conn} {e : Conn.Event}
    (hworker : e.ofWorker = true) (hstep : c.step e = some d) :
    ¬ c.toIo.Quiet := by
  intro hquiet
  rcases Conn.step_cases hstep with
    ⟨result, rfl, _, _⟩ | ⟨ok, bytes, junk, result, buf, rest, rfl, hrecvs, _, _⟩ |
    ⟨ok, bytes, result, buf, rest, rfl, hsends, _, _⟩ |
    ⟨data, result, rfl, _⟩ | ⟨rfl, hpos, _⟩
  · cases hworker
  · rw [hquiet.recvs] at hrecvs
    cases hrecvs
  · rw [hquiet.sends] at hsends
    cases hsends
  · cases hworker
  · rw [hquiet.handlers] at hpos
    exact Nat.lt_irrefl 0 hpos

/-- The invariant does not look at names and user ids. -/
theorem Accounted.login {c : Conn} (h : Accounted c) (name : List UInt8)
    (userId : Nat) : Accounted
      { c with session := { c.session with name := name, userId := userId } } :=
  ⟨h.pendingIo, h.recvs, h.sends, h.early, h.sending, h.destroying, h.last⟩

namespace SlotSafe

variable {sv : Server}

theorem start (shards : Nat) : SlotSafe (.start shards) where
  issued := Issued.start shards
  conns := fun slot => by
    have hsession : (Server.start shards).manager.session slot =
      Session.constructed := rfl
    have hpending : ((Server.start shards).conn slot).session.pendingIo = 0 := by
      show ((Server.start shards).manager.session slot).pendingIo = 0
      rw [hsession]
      rfl
    exact ⟨hpending, Nat.zero_le 1, Nat.zero_le 1, fun _ => rfl,
      fun hne => absurd rfl hne, Nat.zero_le 1, fun hne => absurd rfl hne⟩
  quiet := fun _ _ => ⟨rfl, rfl, rfl, rfl⟩
  once := List.nodup_nil
  gone := fun _ hmem => by cases hmem

/-- A slot where something is left is registered under the id of its session. -/
theorem live (h : SlotSafe sv) {slot : Slot} (hleft : ¬ (sv.io slot).Quiet) :
    sv.manager.byId.lookup (sv.manager.session slot).id = some slot := by
  rcases h.issued.slots.covered slot with hfree | hlive
  · exact absurd (h.quiet slot hfree) hleft
  · exact hlive

/-- A step of the connection in a registered slot. -/
theorem put (h : SlotSafe sv) {slot : Slot} {c : Conn}
    (hslot : slot ∉ sv.manager.pool.freeList)
    (howner : SameOwner (sv.manager.session slot) c.session)
    (hc : Accounted c) : SlotSafe (sv.put slot c) := by
  constructor
  · exact h.issued.congr (h.issued.slots.put slot howner.id howner.index) rfl rfl
      rfl
  · intro other
    by_cases hother : other = slot
    · subst hother
      rw [Server.conn_put_self]
      exact hc
    · rw [sv.conn_put_of_ne c hother]
      exact h.conns other
  · intro other hfree
    have hne : other ≠ slot := by
      intro hsame
      subst hsame
      exact hslot hfree
    show (Function.update sv.io slot c.toIo other).Quiet
    rw [Function.update_of_ne hne]
    exact h.quiet other hfree
  · exact h.once
  · exact h.gone

/-- `Create` starts a new connection in a slot where nothing was left. -/
theorem fresh (h : SlotSafe sv) {socket : Nat} {slot : Slot} {m : SessionManager}
    (hc : Created sv.manager socket slot m) (accepting : Bool) :
    ({ toIo := { sv.io slot with
        accepting := accepting, calls := [], acked := [], accepted := []
        posted := [] }
       session := m.session slot } : Conn) =
      { Conn.fresh (sv.manager.session slot) socket slot sv.manager.nextId
          (sv.manager.nextId % sv.manager.shardCount) with
        accepting := accepting } := by
  have hslot : slot ∈ sv.manager.pool.freeList := by
    rw [hc.freeList]
    exact List.mem_cons_self
  rw [hc.occupant]
  exact Server.fresh_of_quiet (h.quiet slot hslot) _ _ _ _ _ _

/-- `Create`, with the connection that its slot then holds. -/
theorem create (h : SlotSafe sv) {socket : Nat} {slot : Slot} {m : SessionManager}
    (hc : Created sv.manager socket slot m) {c : Conn}
    (howner : SameOwner (m.session slot) c.session) (hacc : Accounted c) :
    SlotSafe (({ sv with
      directory := { sv.directory with
        manager := m
        created := sv.manager.nextId :: sv.directory.created } } : Server).put
      slot c) := by
  have hissued := h.issued.create hc
  have hnodup := h.issued.slots.nodup
  rw [hc.freeList, List.nodup_cons] at hnodup
  constructor
  · exact hissued.congr (hissued.slots.put slot howner.id howner.index) rfl rfl
      rfl
  · intro other
    by_cases hother : other = slot
    · subst hother
      rw [Server.conn_put_self]
      exact hacc
    · rw [Server.conn_put_of_ne _ _ hother]
      show Accounted ⟨sv.io other, m.session other⟩
      rw [hc.others other hother]
      exact h.conns other
  · intro other hfree
    have hne : other ≠ slot := by
      intro hsame
      subst hsame
      exact hnodup.left hfree
    show (Function.update sv.io slot _ other).Quiet
    rw [Function.update_of_ne hne]
    apply h.quiet other
    rw [hc.freeList]
    exact List.mem_cons_of_mem slot hfree
  · exact h.once
  · intro id hmem
    rcases h.gone id hmem with ⟨hcreated, hnone⟩
    refine ⟨List.mem_cons_of_mem _ hcreated, ?_⟩
    show m.byId.lookup id = none
    rw [hc.byId, AList.lookup_insert_ne (Nat.ne_of_lt (h.issued.old id hcreated))]
    exact hnone

theorem accept (h : SlotSafe sv) (socket : Nat) (result : PostResult) :
    SlotSafe (sv.accept socket result) := by
  rcases sv.accept_cases socket result with
    ⟨_, heq⟩ | ⟨slot, m, c, _, hc, hconn, heq⟩
  · rw [heq]
    exact h
  · rw [heq]
    have hfresh := hconn.trans (h.fresh hc false)
    have hposted : Accounted (c.after (c.session.postRecv result)) := by
      rw [hfresh]
      exact accounted_step (e := .postRecv result)
        (accounted_fresh (sv.manager.session slot) socket slot sv.manager.nextId
          (sv.manager.nextId % sv.manager.shardCount)) rfl
    have howner := (postRecv_recvCall c.session result).owner
    rw [hconn] at howner hposted ⊢
    exact h.create hc howner hposted

theorem destroy (h : SlotSafe sv) {slot : Slot}
    (hdestroying : (sv.io slot).destroying ≠ 0) :
    SlotSafe {
      directory := { sv.directory with manager := sv.manager.destroy slot }
      io := Function.update sv.io slot
        { sv.io slot with destroying := (sv.io slot).destroying - 1 }
      destroyed := (sv.manager.session slot).id :: sv.destroyed } := by
  have hlive := h.live fun hquiet => hdestroying hquiet.destroying
  have hconn := h.conns slot
  rcases hconn.last hdestroying with ⟨_, hrecvs, hsends, hhandlers⟩
  have hzero : (sv.io slot).destroying - 1 = 0 :=
    Nat.sub_eq_zero_of_le hconn.destroying
  constructor
  · exact h.issued.destroy hlive
  · intro other
    show Accounted ⟨Function.update sv.io slot _ other, sv.manager.session other⟩
    by_cases hother : other = slot
    · subst hother
      rw [Function.update_self]
      refine ⟨hconn.pendingIo, hconn.recvs, hconn.sends, hconn.early,
        hconn.sending, ?_, fun hne => absurd hzero hne⟩
      show (sv.io other).destroying - 1 ≤ 1
      rw [hzero]
      exact Nat.zero_le 1
    · rw [Function.update_of_ne hother]
      exact h.conns other
  · intro other hfree
    show (Function.update sv.io slot _ other).Quiet
    by_cases hother : other = slot
    · subst hother
      rw [Function.update_self]
      exact ⟨hrecvs, hsends, hhandlers, hzero⟩
    · rw [Function.update_of_ne hother]
      apply h.quiet other
      replace hfree :
        other ∈ (sv.manager.session slot).index :: sv.manager.pool.freeList := hfree
      rw [(h.issued.slots.owner _ slot hlive).right] at hfree
      rcases List.mem_cons.mp hfree with hsame | hfree
      · exact absurd hsame hother
      · exact hfree
  · rw [List.nodup_cons]
    refine ⟨fun hmem => ?_, h.once⟩
    have hnone := (h.gone _ hmem).right
    rw [hlive] at hnone
    cases hnone
  · intro id hmem
    show id ∈ sv.directory.created ∧
      (sv.manager.byId.erase (sv.manager.session slot).id).lookup id = none
    rcases List.mem_cons.mp hmem with hsame | hmem
    · rw [hsame]
      exact ⟨h.issued.listed _ ⟨slot, hlive⟩, AList.lookup_erase _ _⟩
    · rcases h.gone id hmem with ⟨hcreated, hnone⟩
      refine ⟨hcreated, ?_⟩
      have hne : id ≠ (sv.manager.session slot).id := by
        intro hsame
        rw [hsame, hlive] at hnone
        cases hnone
      rw [AList.lookup_erase_ne hne]
      exact hnone

theorem login (h : SlotSafe sv) {d : Directory} (hd : Issued d)
    (hlogin : Server.LoggedIn sv.directory d) :
    SlotSafe { sv with directory := d } := by
  constructor
  · exact hd
  · intro slot
    rcases hlogin.session slot with ⟨name, userId, hsession⟩
    show Accounted ⟨sv.io slot, d.manager.session slot⟩
    rw [hsession]
    exact Accounted.login (h.conns slot) name userId
  · intro slot hfree
    replace hfree : slot ∈ d.manager.pool.freeList := hfree
    rw [hlogin.freeList] at hfree
    exact h.quiet slot hfree
  · exact h.once
  · intro id hmem
    show id ∈ d.created ∧ d.manager.byId.lookup id = none
    rw [hlogin.created, hlogin.byId]
    exact h.gone id hmem

end SlotSafe

theorem slotSafe_preserved (userIdOf : List UInt8 -> Nat) :
    Preserved (Server.step userIdOf) SlotSafe := by
  intro sv event sw h hstep
  rcases Server.step_cases hstep with
    ⟨socket, result, rfl, rfl⟩ | ⟨slot, e, c, rfl, hworker, hconn, rfl⟩ |
    ⟨slot, rfl, hdestroying, rfl⟩ |
    ⟨id, data, result, rfl, ⟨_, rfl⟩ | ⟨slot, c, hlive, hconn, rfl⟩⟩ |
    ⟨login, d, hlogin, hd, rfl⟩
  · exact h.accept socket result
  · have hlive := h.live (not_quiet_of_worker hworker hconn)
    exact h.put (h.issued.slots.not_free hlive) (sameOwner_step hconn)
      (accounted_step (h.conns slot) hconn)
  · exact h.destroy hdestroying
  · exact h
  · exact h.put (h.issued.slots.not_free hlive) (sameOwner_step hconn)
      (accounted_step (h.conns slot) hconn)
  · exact h.login (issued_preserved userIdOf _ _ _ h.issued hd)
      (Server.loggedIn_of_step hlogin hd)

theorem slotSafe_run {userIdOf : List UInt8 -> Nat} {shards : Nat}
    {events : List Server.Event} {sv : Server}
    (hrun : runFrom (Server.step userIdOf) (.start shards) events = some sv) :
    SlotSafe sv :=
  (slotSafe_preserved userIdOf).run (SlotSafe.start shards) hrun

/--
In every reachable state the counter of a registered session is exact, no id was
destroyed twice or is still registered, a handler about to call `Destroy` is the
last thing left for its session, free slots are free once and have nothing left,
and what is left in a slot is left for the session registered there.
-/
theorem slot_safety {userIdOf : List UInt8 -> Nat} {shards : Nat}
    {events : List Server.Event} {sv : Server}
    (hrun : runFrom (Server.step userIdOf) (.start shards) events = some sv) :
    (forall id slot, sv.manager.byId.lookup id = some slot ->
        (sv.manager.session slot).id = id ∧
        (sv.manager.session slot).pendingIo =
          (sv.io slot).recvs.length + (sv.io slot).sends.length +
            (sv.io slot).handlers ∧
        (sv.io slot).recvs.length ≤ 1 ∧ (sv.io slot).sends.length ≤ 1) ∧
      sv.directory.created.Nodup ∧
      sv.destroyed.Nodup ∧
      (forall id, id ∈ sv.destroyed ->
        id ∈ sv.directory.created ∧ sv.manager.byId.lookup id = none) ∧
      (forall slot, (sv.io slot).destroying ≠ 0 ->
        (sv.io slot).destroying = 1 ∧
          (sv.manager.session slot).closing = true ∧
          (sv.io slot).recvs = [] ∧ (sv.io slot).sends = [] ∧
          (sv.io slot).handlers = 0) ∧
      sv.manager.pool.freeList.Nodup ∧
      (forall slot, slot ∈ sv.manager.pool.freeList -> (sv.io slot).Quiet) ∧
      (forall slot, ¬ (sv.io slot).Quiet ->
        sv.manager.byId.lookup (sv.manager.session slot).id = some slot) := by
  have h := slotSafe_run hrun
  refine ⟨?_, h.issued.ids, h.once, h.gone, ?_, h.issued.slots.nodup, h.quiet,
    fun slot => h.live⟩
  · intro id slot hlive
    have hconn := h.conns slot
    exact ⟨(h.issued.slots.owner id slot hlive).left, hconn.pendingIo,
      hconn.recvs, hconn.sends⟩
  · intro slot hdestroying
    have hconn := h.conns slot
    refine ⟨?_, hconn.last hdestroying⟩
    exact Nat.le_antisymm hconn.destroying (Nat.pos_of_ne_zero hdestroying)

/-- A client that connects and leaves; the second client takes its slot. -/
def visitEvents : List Server.Event :=
  [.accept 3 .started,
    .worker Session.constructed.index
      (.recvCompletion true [] (fun _ => makePacket 0 []) .started),
    .worker Session.constructed.index .completeIo,
    .destroy Session.constructed.index, .accept 4 .started]

theorem slot_safety_visit :
    exists sv, runFrom (Server.step nameNumber) (.start 8) visitEvents = some sv ∧
      sv.directory.created = [2, 1] ∧ sv.destroyed = [1] ∧
      sv.destroyed.Nodup := by
  have hrun : (runFrom (Server.step nameNumber) (.start 8) visitEvents).map
      (fun sv => (sv.directory.created, sv.destroyed)) = some ([2, 1], [1]) := by
    decide +kernel
  rcases Option.map_eq_some_iff.mp hrun with ⟨sv, hsv, hids⟩
  injection hids with hcreated hdestroyed
  have hsafe := slot_safety hsv
  exact ⟨sv, hsv, hcreated, hdestroyed, hsafe.right.right.left⟩

end Network
end ContentServer
