import ContentServer.Registry.Recipients
import ContentServer.Sessions.SendRoom

/-!
# The roster of a newcomer

`SendRosterTo` hands a newcomer one packet for each other named session.  They
arrive complete, however slowly the network takes them, if they all fit into the
send ring together; otherwise `Send` silently drops some.
-/

namespace ContentServer
namespace Registry

open Buffers Foundation Protocol Sessions

namespace SessionManager

/-- The other sessions that have names. -/
def others (m : SessionManager) (id : Nat) : List (Nat × Slot) :=
  m.namedSlots.filter (fun e => e.1 ≠ id)

/-- What `SendRosterTo` hands to the session with the given id, in order. -/
def rosterTexts (m : SessionManager) (id : Nat) : List (List UInt8) :=
  (m.others id).map fun e =>
    (Consumers.nickPacket e.1 (m.session e.2).name).wire

theorem mem_others {m : SessionManager} {id other : Nat} {slot : Slot} :
    (other, slot) ∈ m.others id <->
      m.byId.lookup other = some slot ∧ (m.session slot).isNamed = true ∧
        other ≠ id := by
  unfold others
  rw [List.mem_filter, mem_namedSlots, decide_eq_true_iff, and_assoc]

theorem nodup_others (m : SessionManager) (id : Nat) : (m.others id).Nodup := by
  have hkeys : (m.byId.entries.map fun e => (e.1, e.2)).Nodup := by
    apply List.Nodup.of_map Prod.fst
    rw [List.map_map]
    exact m.byId.nodupKeys
  exact (hkeys.filter _).filter _

theorem rosterTargets_eq {m : SessionManager} {id : Nat} {target : Slot}
    (h : m.byId.lookup id = some target) :
    m.rosterTargets id = (m.rosterTexts id).map fun data => (target, data) := by
  unfold rosterTargets rosterTexts others
  rw [h, List.map_map]
  rfl

/-- The registered ids have 64 bits, and the names are ones a user may take. -/
def LegalNames (m : SessionManager) : Prop :=
  forall e, e ∈ m.namedSlots ->
    e.1 < 2 ^ 64 ∧ Consumers.validName (m.session e.2).name = true

theorem length_wire_nickPacket {sessionId : Nat} {name : List UInt8}
    (hid : sessionId < 2 ^ 64) (hname : Consumers.validName name = true) :
    (Consumers.nickPacket sessionId name).wire.length =
      10 + (decimal sessionId).length + name.length := by
  have hbody := Consumers.body_nickPacket hid hname
  have hwords : (text "NICK ").length = 5 ∧ (text " ").length = 1 := by decide
  unfold Consumers.nickPacket at hbody ⊢
  rw [wire_makePacket, List.length_append, length_toBytes_header, ← body_makePacket 0,
    hbody]
  unfold Consumers.nickLine
  simp only [List.length_append, hwords, HEADER_SIZE]
  omega

theorem needed_rosterTexts {m : SessionManager} (h : m.LegalNames) (id : Nat) :
    needed (m.rosterTexts id) =
      ((m.others id).map fun e =>
        10 + (decimal e.1).length + (m.session e.2).name.length).sum := by
  unfold needed rosterTexts
  rw [List.map_map]
  congr 1
  apply List.map_congr_left
  intro e he
  have hlegal := h e (List.mem_of_mem_filter he)
  exact length_wire_nickPacket hlegal.left hlegal.right

/-- The manager sees the session of a connection; its name may have been set. -/
structure Serves (m : SessionManager) (target : Slot) (c : Conn) : Prop where
  sendBuffer : (m.session target).sendBuffer = c.session.sendBuffer
  sending : (m.session target).sending = c.session.sending
  closing : (m.session target).closing = c.session.closing

end SessionManager

/-!
# Crowds
-/

namespace SessionManager

/-- Accept one more connection and name its session. -/
def joined (m : SessionManager) (socket : Nat) (name : List UInt8) : SessionManager :=
  match m.create socket with
  | none => m
  | some (_, m') => (m'.setName m.nextId name).2

def userName (i : Nat) : List UInt8 :=
  text "user" ++ decimal i

/-- A server with `n` users. -/
def crowd : Nat -> SessionManager
  | 0 => initShards 2
  | n + 1 => (crowd n).joined n (userName n)

/-- The manager after one more connection. -/
def arrival (m : SessionManager) (socket : Nat) : SessionManager :=
  match m.create socket with
  | none => m
  | some (_, m') => m'

theorem create_arrival {m : SessionManager} (socket : Nat)
    (h : m.pool.freeList ≠ []) :
    exists target, m.create socket = some (target, m.arrival socket) := by
  unfold arrival
  cases hmade : m.create socket with
  | none => exact absurd ((m.create_eq_none_iff socket).mp hmade) h
  | some made => exact ⟨made.1, rfl⟩

theorem serves_created {m m' : SessionManager} {socket : Nat} {target : Slot}
    (h : m.create socket = some (target, m')) (handler : Nat) :
    m'.byId.lookup m.nextId = some target ∧
      m'.Serves target (Conn.fresh (m.session target) socket target m.nextId handler) ∧
      (m'.session target).closing = false ∧
      (m'.session target).sendBuffer.getUsedSize = 0 := by
  have hmade := create_created h
  have hfields : (m'.session target).sendBuffer = (m.session target).sendBuffer.clear ∧
      (m'.session target).sending = false ∧ (m'.session target).closing = false := by
    rw [hmade.occupant]
    exact ⟨rfl, rfl, rfl⟩
  rcases hfields with ⟨hring, hsending, hclosing⟩
  refine ⟨?_, ⟨hring, hsending, hclosing⟩, hclosing, ?_⟩
  · rw [hmade.byId]
    exact AList.lookup_insert m.byId
  · rw [hring, RingBuffer.getUsedSize_clear]

theorem length_userName {i : Nat} (h : i < 100000) :
    5 ≤ (userName i).length ∧ (userName i).length ≤ 9 := by
  have hlength : (userName i).length = 4 + (decimal i).length := List.length_append
  have hpos := List.length_pos_of_ne_nil (decimal_ne_nil i)
  have hle := length_decimal_le 4 i h
  omega

theorem userName_injective {i j : Nat} (h : userName i = userName j) : i = j :=
  decimal_injective (List.append_cancel_left h)

/-- What is registered after `n` users have joined. -/
structure Crowded (n : Nat) (m : SessionManager) : Prop where
  slots : Occupied m
  nextId : m.nextId = n + 1
  free : m.pool.freeList.length + n = 1000
  members : m.byId.entries.length = n
  named : forall id slot, m.byId.lookup id = some slot ->
    exists i, i < n ∧ (m.session slot).name = userName i
  unused : forall i, n ≤ i -> m.byName.lookup (userName i) = none

theorem entries_create {m m' : SessionManager} {socket : Nat} {slot : Slot}
    (hslots : Occupied m) (hmade : Created m socket slot m') :
    m'.byId.entries = ⟨m.nextId, slot⟩ :: m.byId.entries := by
  rw [hmade.byId]
  exact AList.entries_insert_of_notMem (AList.lookup_eq_none.mp hslots.lookup_nextId)

/-- The sessions that were there before keep their names. -/
theorem name_create {m m' : SessionManager} {socket : Nat} {slot : Slot}
    (hslots : Occupied m) (hmade : Created m socket slot m') {id : Nat} {other : Slot}
    (h : m.byId.lookup id = some other) : m'.session other = m.session other := by
  refine hmade.others other ?_
  intro hsame
  refine hslots.not_free h ?_
  rw [hmade.freeList, hsame]
  exact List.mem_cons_self

theorem crowded_crowd (n : Nat) (h : n ≤ 1000) : Crowded n (crowd n) := by
  induction n with
  | zero =>
      exact {
        slots := Occupied.initShards 2
        nextId := rfl
        free := by
          have hfree : (initShards 2).pool.freeList = List.finRange 1000 :=
            ObjectPool.freeList_create _
          show (initShards 2).pool.freeList.length + 0 = 1000
          rw [hfree, List.length_finRange]
        members := rfl
        named := fun id slot hlookup => by cases hlookup
        unused := fun i _ => rfl }
  | succ n ih =>
      have hold := ih (by omega)
      have hfree : (crowd n).pool.freeList ≠ [] := by
        intro hnil
        have hsize := hold.free
        rw [hnil, List.length_nil] at hsize
        omega
      rcases create_arrival n hfree with ⟨slot, hmade⟩
      have hcreated := create_created hmade
      have hlookup : ((crowd n).arrival n).byId.lookup (crowd n).nextId = some slot := by
        rw [hcreated.byId]
        exact AList.lookup_insert _
      have hnew : userName n ∉ ((crowd n).arrival n).byName := by
        rw [hcreated.byName]
        exact AList.lookup_eq_none.mp (hold.unused n (Nat.le_refl n))
      have hcrowd : crowd (n + 1) =
          { ((crowd n).arrival n).put slot
              ((((crowd n).arrival n).session slot).setName (userName n)) with
            byName := ((crowd n).arrival n).byName.insert (userName n)
              (crowd n).nextId } := by
        show (crowd n).joined n (userName n) = _
        unfold joined
        rw [hmade]
        show (((crowd n).arrival n).setName (crowd n).nextId (userName n)).2 = _
        unfold setName
        rw [if_neg hnew, hlookup]
      have hsessions : forall other, (crowd (n + 1)).session other =
          (((crowd n).arrival n).put slot
            ((((crowd n).arrival n).session slot).setName (userName n))).session other := by
        intro other
        rw [hcrowd]
        rfl
      exact {
        slots := by
          rw [hcrowd]
          have hput := (hold.slots.create hcreated).put slot
            (s := (((crowd n).arrival n).session slot).setName (userName n)) rfl rfl
          exact hput.congr rfl rfl rfl (fun _ => rfl) (fun _ => rfl)
        nextId := by
          rw [hcrowd]
          show ((crowd n).arrival n).nextId = n + 1 + 1
          rw [hcreated.nextId, hold.nextId]
        free := by
          rw [hcrowd]
          show ((crowd n).arrival n).pool.freeList.length + (n + 1) = 1000
          have hsize := hold.free
          rw [hcreated.freeList, List.length_cons] at hsize
          omega
        members := by
          rw [hcrowd]
          show ((crowd n).arrival n).byId.entries.length = n + 1
          rw [entries_create hold.slots hcreated, List.length_cons, hold.members]
        named := by
          intro id other hother
          rw [hcrowd] at hother
          replace hother : ((crowd n).arrival n).byId.lookup id = some other := hother
          rw [hsessions]
          by_cases hself : other = slot
          · rw [hself, session_put_self]
            exact ⟨n, Nat.lt_succ_self n, rfl⟩
          · rw [session_put_of_ne _ _ hself]
            have hid : id ≠ (crowd n).nextId := by
              intro hsame
              rw [hsame, hlookup] at hother
              exact hself (Option.some.inj hother).symm
            rw [hcreated.byId, AList.lookup_insert_ne hid] at hother
            rcases hold.named id other hother with ⟨i, hi, hname⟩
            rw [name_create hold.slots hcreated hother]
            exact ⟨i, by omega, hname⟩
        unused := by
          intro i hi
          rw [hcrowd]
          show (((crowd n).arrival n).byName.insert (userName n)
            (crowd n).nextId).lookup (userName i) = none
          have hne : userName i ≠ userName n := by
            intro hsame
            have := userName_injective hsame
            omega
          rw [AList.lookup_insert_ne hne, hcreated.byName]
          exact hold.unused i (by omega) }

/-- Everyone of the crowd is on the roster of one more session. -/
theorem others_crowd {n : Nat} (h : n < 1000) (socket : Nat) :
    exists target, (crowd n).create socket = some (target, (crowd n).arrival socket) ∧
      ((crowd n).arrival socket).LegalNames ∧
      (((crowd n).arrival socket).others (n + 1)).length = n ∧
      forall e, e ∈ ((crowd n).arrival socket).others (n + 1) ->
        16 ≤ 10 + (decimal e.1).length +
          (((crowd n).arrival socket).session e.2).name.length := by
  have hcrowd := crowded_crowd n (Nat.le_of_lt h)
  have hfree : (crowd n).pool.freeList ≠ [] := by
    intro hnil
    have hsize := hcrowd.free
    rw [hnil, List.length_nil] at hsize
    omega
  rcases create_arrival socket hfree with ⟨target, hmade⟩
  have hcreated := create_created hmade
  have hentries : ((crowd n).arrival socket).byId.entries =
      ⟨n + 1, target⟩ :: (crowd n).byId.entries := by
    rw [entries_create hcrowd.slots hcreated, hcrowd.nextId]
  have hnamed : forall id slot, (crowd n).byId.lookup id = some slot ->
      id ≠ n + 1 ∧ exists i, i < n ∧
        (((crowd n).arrival socket).session slot).name = userName i := by
    intro id slot hlookup
    have hlt := hcrowd.slots.live_lt hlookup
    rw [hcrowd.nextId] at hlt
    rw [name_create hcrowd.slots hcreated hlookup]
    exact ⟨Nat.ne_of_lt hlt, hcrowd.named id slot hlookup⟩
  have hothers : ((crowd n).arrival socket).others (n + 1) =
      (crowd n).byId.entries.map (fun e => (e.1, e.2)) := by
    unfold others namedSlots
    rw [hentries, List.filter_filter, List.map_cons, List.filter_cons, if_neg (by simp),
      List.filter_eq_self]
    intro e he
    rcases List.mem_map.mp he with ⟨entry, hentry, rfl⟩
    rcases hnamed _ _ (AList.mem_lookup_iff.mpr hentry) with ⟨hne, i, _, hname⟩
    rw [Bool.and_eq_true, decide_eq_true_iff]
    refine ⟨hne, ?_⟩
    unfold Session.isNamed
    rw [hname]
    rfl
  have hlengths : forall e, e ∈ ((crowd n).arrival socket).others (n + 1) ->
      e.1 < n + 1 ∧ 5 ≤ (((crowd n).arrival socket).session e.2).name.length ∧
        (((crowd n).arrival socket).session e.2).name.length ≤ 9 := by
    intro e he
    rw [hothers] at he
    rcases List.mem_map.mp he with ⟨entry, hentry, rfl⟩
    have hlookup := AList.mem_lookup_iff.mpr hentry
    have hlt := hcrowd.slots.live_lt hlookup
    rw [hcrowd.nextId] at hlt
    rcases hnamed _ _ hlookup with ⟨_, i, hi, hname⟩
    rw [hname]
    exact ⟨hlt, length_userName (by omega)⟩
  refine ⟨target, hmade, ?_, ?_, ?_⟩
  · intro e he
    have hother : e.1 ≠ n + 1 := by
      intro hsame
      rcases mem_namedSlots.mp he with ⟨hlookup, hset⟩
      have hself : ((crowd n).arrival socket).byId.lookup (n + 1) = some target := by
        rw [hcreated.byId, hcrowd.nextId]
        exact AList.lookup_insert _
      rw [hsame, hself] at hlookup
      rw [← Option.some.inj hlookup, hcreated.occupant] at hset
      cases hset
    rcases hlengths e (List.mem_filter.mpr ⟨he, decide_eq_true hother⟩) with
      ⟨hid, hmin, hmax⟩
    refine ⟨by omega, ?_⟩
    unfold Consumers.validName
    simp only [Bool.not_eq_true', Bool.or_eq_false_iff, decide_eq_false_iff_not]
    omega
  · rw [hothers, List.length_map, hcrowd.members]
  · intro e he
    have hname := (hlengths e he).right.left
    have hid := List.length_pos_of_ne_nil (decimal_ne_nil e.1)
    omega

/-- If nothing completes, some packet of an excessive roster is dropped. -/
theorem roster_dropped_crowd (n : Nat) (hmax : n < 1000) (hover : 255 < n) :
    exists target, (crowd n).create 9 = some (target, (crowd n).arrival 9) ∧
      ((crowd n).arrival 9).LegalNames ∧
      exists later d,
        runFrom Conn.step (Conn.fresh ((crowd n).session target) 9 target (n + 1) 0)
          later = some d ∧
        sent later = ((crowd n).arrival 9).rosterTexts (n + 1) ∧
        d.accepted ≠ ((crowd n).arrival 9).rosterTexts (n + 1) := by
  rcases others_crowd hmax 9 with ⟨target, hmade, hlegal, hlength, hlong⟩
  rcases run_sends (((crowd n).arrival 9).rosterTexts (n + 1))
    (Conn.fresh ((crowd n).session target) 9 target (n + 1) 0) with ⟨d, hrun⟩
  refine ⟨target, hmade, hlegal, _, d, hrun, sent_sends _, ?_⟩
  intro haccepted
  have hroom := room_of_accepted hrun haccepted
  have hsum := List.card_nsmul_le_sum ((((crowd n).arrival 9).others (n + 1)).map fun e =>
    10 + (decimal e.1).length + (((crowd n).arrival 9).session e.2).name.length) 16 (by
      intro x hx
      rcases List.mem_map.mp hx with ⟨e, he, rfl⟩
      exact hlong e he)
  rw [List.length_map, hlength, smul_eq_mul] at hsum
  rw [needed_rosterTexts hlegal] at hroom
  have hsize : BUFFER_SIZE = 4096 := rfl
  omega

end SessionManager

/--
The roster reaches a newcomer complete, whatever completes in the meantime,
exactly if its packets together fit into the empty ring.
-/
theorem roster_complete_iff {m : SessionManager} (hlegal : m.LegalNames) {id : Nat}
    {target : Slot} (htarget : m.byId.lookup id = some target)
    {s : Session} {socket : Nat} {index : Slot} {handler : Nat}
    {earlier : List Conn.Event} {c : Conn}
    (hrun : runFrom Conn.step (Conn.fresh s socket index id handler) earlier = some c)
    (hserves : m.Serves target c) (hopen : (m.session target).closing = false)
    (hempty : (m.session target).sendBuffer.getUsedSize = 0) :
    (m.others id).Nodup ∧
    (forall other slot, (other, slot) ∈ m.others id <->
      m.byId.lookup other = some slot ∧ (m.session slot).isNamed = true ∧
        other ≠ id) ∧
    (forall results, m.sendRosterTo id results =
      m.sendAll ((m.rosterTexts id).map fun data => (target, data)) results) ∧
    ((forall later d, runFrom Conn.step c later = some d ->
        sent later = m.rosterTexts id ->
          d.accepted = c.accepted ++ m.rosterTexts id) <->
      ((m.others id).map fun e =>
        10 + (decimal e.1).length + (m.session e.2).name.length).sum ≤ 4095) := by
  have hflowing := flowing_run hrun (by rw [← hserves.closing]; exact hopen)
  refine ⟨m.nodup_others id, fun _ _ => SessionManager.mem_others, ?_, ?_⟩
  · intro results
    rw [m.sendRosterTo_eq, SessionManager.rosterTargets_eq htarget]
  · rw [sends_accepted_iff hflowing.covered, SessionManager.needed_rosterTexts hlegal,
      ← hserves.sendBuffer, hempty, Nat.zero_add]
    exact Nat.lt_succ_iff

/-- Three users are not too many. -/
theorem roster_complete_three :
    exists target,
      (SessionManager.crowd 3).create 9 =
        some (target, (SessionManager.crowd 3).arrival 9) ∧
      (((SessionManager.crowd 3).arrival 9).rosterTexts 4).length = 3 ∧
      forall later d,
        runFrom Conn.step
            (Conn.fresh ((SessionManager.crowd 3).session target) 9 target 4 0) later =
          some d ->
        sent later = ((SessionManager.crowd 3).arrival 9).rosterTexts 4 ->
        d.accepted = ((SessionManager.crowd 3).arrival 9).rosterTexts 4 := by
  rcases SessionManager.others_crowd (n := 3) (by decide) 9 with
    ⟨target, hmade, hlegal, hlength, _⟩
  have hnext := (SessionManager.crowded_crowd 3 (by decide)).nextId
  rcases SessionManager.serves_created hmade 0 with ⟨hlookup, hserves, hopen, hempty⟩
  rw [hnext] at hlookup hserves
  have hfit : ((((SessionManager.crowd 3).arrival 9).others 4).map fun e =>
      10 + (decimal e.1).length +
        (((SessionManager.crowd 3).arrival 9).session e.2).name.length).sum ≤ 4095 := by
    decide +kernel
  have hrun : runFrom Conn.step
      (Conn.fresh ((SessionManager.crowd 3).session target) 9 target 4 0) [] =
      some (Conn.fresh ((SessionManager.crowd 3).session target) 9 target 4 0) := rfl
  refine ⟨target, hmade, ?_, ?_⟩
  · unfold SessionManager.rosterTexts
    rw [List.length_map]
    exact hlength
  · intro later d hlater hsent
    have hall := (roster_complete_iff hlegal hlookup hrun hserves hopen
      hempty).right.right.right.mpr hfit later d hlater hsent
    exact hall.trans (List.nil_append _)

/-- Three hundred are: the newcomer never learns some of their names. -/
theorem roster_incomplete_crowd :
    exists target,
      (SessionManager.crowd 300).create 9 =
        some (target, (SessionManager.crowd 300).arrival 9) ∧
      ((SessionManager.crowd 300).arrival 9).LegalNames ∧
      exists later d,
        runFrom Conn.step
            (Conn.fresh ((SessionManager.crowd 300).session target) 9 target 301 0)
            later = some d ∧
        sent later = ((SessionManager.crowd 300).arrival 9).rosterTexts 301 ∧
        d.accepted ≠ ((SessionManager.crowd 300).arrival 9).rosterTexts 301 :=
  SessionManager.roster_dropped_crowd 300 (by decide) (by decide)

end Registry
end ContentServer
