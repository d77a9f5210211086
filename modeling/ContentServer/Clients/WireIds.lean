import ContentServer.Clients.ChatClient
import ContentServer.Registry.Consistency

/-!
# Wire ids

A session id has 64 bits and grows for the life of the server; the header field
has 16.  The field identifies the live sessions as long as fewer than 65536 ids
were given out.  Session 65536 already speaks under id zero, which clients take
for the server.
-/

namespace ContentServer
namespace Clients

open Foundation Protocol Sessions Registry SessionManager Consumers

/-- The packets that carry what the user of a session says. -/
inductive SentBy (id : Nat) : Packet -> Prop where
  /-- Chat, as `OnRecv` hands it to the consumer that broadcasts it. -/
  | chat {s t : Session} {junk : Packet} {msg : ShardMsg} (hid : s.id = id)
      (hbody : s.onRecvBody junk = .next t msg) : SentBy id msg.pkt
  /-- Whispers and friend chat. -/
  | made (msg : List UInt8) : SentBy id (senderPacket id msg)

/-- Both ways put the low 16 bits of the session id into the header. -/
theorem SentBy.header_id {id : Nat} {pkt : Packet} (h : SentBy id pkt) :
    pkt.header.id = UInt16.ofNat id := by
  cases h with
  | made msg => rfl
  | chat hid hbody =>
      unfold Session.onRecvBody at hbody
      split at hbody
      · cases hbody
      · simp only at hbody
        split at hbody
        · cases hbody
        · split at hbody
          · cases hbody
          · injection hbody with _ hmsg
            rw [← hmsg, ← hid]

/-- In this state the wire ids tell the live sessions apart. -/
structure Identified (d : Directory) : Prop where
  notServer : forall id pkt, d.Live id -> SentBy id pkt -> pkt.header.id ≠ 0
  distinct : forall id id' pkt pkt', d.Live id -> d.Live id' -> id ≠ id' ->
    SentBy id pkt -> SentBy id' pkt' -> pkt.header.id ≠ pkt'.header.id
  announced : forall id name pkt (ui : ChatUI), d.Live id ->
    validName name = true -> SentBy id pkt ->
      ui.handleControl (nickPacket id name).body =
        { ui with names := ui.names.insert pkt.header.id name }
  shown : forall id name pkt (ui : ChatUI), d.Live id ->
    validName name = true -> SentBy id pkt ->
      (ui.handleControl (nickPacket id name).body).showPacket pkt.header.id
          pkt.body =
        (ui.handleControl (nickPacket id name).body).addChat
          (text "[" ++ name ++ text "] " ++ pkt.body)

theorem ofNat_ne_zero {id : Nat} (hpos : 0 < id) (h : id < 65536) :
    UInt16.ofNat id ≠ 0 := by
  intro hzero
  have hnat := congrArg UInt16.toNat hzero
  rw [UInt16.toNat_ofNat', Nat.mod_eq_of_lt h] at hnat
  exact Nat.ne_of_gt hpos hnat

theorem ofNat_ne_ofNat {id id' : Nat} (h : id < 65536) (h' : id' < 65536)
    (hne : id ≠ id') : UInt16.ofNat id ≠ UInt16.ofNat id' := by
  intro hsame
  have hnat := congrArg UInt16.toNat hsame
  rw [UInt16.toNat_ofNat', UInt16.toNat_ofNat', Nat.mod_eq_of_lt h,
    Nat.mod_eq_of_lt h'] at hnat
  exact hne hnat

/-- Ids below 65536 identify. -/
theorem identified_of_lt {d : Directory} (hzero : ¬ d.Live 0)
    (h : forall id, d.Live id -> id < 65536) : Identified d := by
  have hpos : forall id, d.Live id -> 0 < id := by
    intro id hlive
    apply Nat.pos_of_ne_zero
    intro heq
    rw [heq] at hlive
    exact hzero hlive
  have hcontrol : forall id name (pkt : Packet) (ui : ChatUI), d.Live id ->
      validName name = true -> SentBy id pkt ->
        ui.handleControl (nickPacket id name).body =
          { ui with names := ui.names.insert pkt.header.id name } := by
    intro id name pkt ui hlive hname hsent
    have hid := h id hlive
    rw [body_nickPacket (by omega) hname, hsent.header_id]
    exact ui.handleControl_nickLine name hid
  constructor
  · intro id pkt hlive hsent
    rw [hsent.header_id]
    exact ofNat_ne_zero (hpos id hlive) (h id hlive)
  · intro id id' pkt pkt' hlive hlive' hne hsent hsent'
    rw [hsent.header_id, hsent'.header_id]
    exact ofNat_ne_ofNat (h id hlive) (h id' hlive') hne
  · exact hcontrol
  · intro id name pkt ui hlive hname hsent
    rw [hcontrol id name pkt ui hlive hname hsent]
    unfold ChatUI.showPacket
    rw [if_neg, ChatUI.nameFor_insert]
    rw [hsent.header_id]
    exact ofNat_ne_zero (hpos id hlive) (h id hlive)

/-- Session 65536 passes for the server. -/
theorem not_identified_of_live {d : Directory} (h : d.Live 65536) :
    ¬ Identified d := by
  intro hident
  exact hident.notServer 65536 _ h (.made []) rfl

/-!
# Ids over a run
-/

/-- A step gives out at most one id, which is then live. -/
theorem created_step {userIdOf : List UInt8 -> Nat} {d e : Directory}
    {event : Directory.Event} (hstep : d.step userIdOf event = some e) :
    e.created = d.created ∨
      (e.created = d.manager.nextId :: d.created ∧ e.Live d.manager.nextId) := by
  rcases Directory.step_cases hstep with
    ⟨socket, rfl, ⟨_, rfl⟩ | ⟨slot, m, hcreate, rfl⟩⟩ |
    ⟨id, name, rfl, _, _, rfl | ⟨slot, _, _, rfl⟩⟩ |
    ⟨id, name, rfl, _, rfl | ⟨slot, _, rfl⟩⟩ | ⟨id, slot, rfl, _, rfl⟩
  · exact Or.inl rfl
  · refine Or.inr ⟨rfl, slot, ?_⟩
    show m.byId.lookup d.manager.nextId = some slot
    rw [(create_created hcreate).byId]
    exact AList.lookup_insert _
  · exact Or.inl rfl
  · exact Or.inl rfl
  · exact Or.inl rfl
  · exact Or.inl rfl
  · exact Or.inl rfl

theorem created_mono {userIdOf : List UInt8 -> Nat} (n : Nat) :
    Preserved (Directory.step userIdOf) fun d => n ≤ d.created.length := by
  intro d event e h hstep
  rcases created_step hstep with hsame | ⟨hone, _⟩
  · rw [hsame]
    exact h
  · rw [hone, List.length_cons]
    exact Nat.le_succ_of_le h

/-- With fewer than 65536 ids given out, all live ids fit the header field. -/
theorem identified_of_few {d : Directory} (h : Issued d)
    (hfew : d.created.length < 65536) : Identified d := by
  apply identified_of_lt
  · intro hlive
    rcases hlive with ⟨slot, hslot⟩
    rw [h.slots.zero] at hslot
    cases hslot
  · intro id hlive
    rcases hlive with ⟨slot, hslot⟩
    have hlt := h.slots.live_lt hslot
    rw [h.count] at hlt
    omega

/--
The wire ids identify the live sessions in every state of a run exactly when
the run gives out fewer than 65536 session ids.
-/
theorem wire_ids_identify_iff {userIdOf : List UInt8 -> Nat} {shards : Nat}
    {events : List Directory.Event} {d : Directory}
    (hrun : runFrom (Directory.step userIdOf) (.start shards) events = some d) :
    (forall e, Visits (Directory.step userIdOf) (.start shards) events e ->
      Identified e) <-> d.created.length < 65536 := by
  constructor
  · intro hall
    have hhistory := run_history (I := fun pre u =>
      runFrom (Directory.step userIdOf) (.start shards) pre = some u ∧
        ((forall e, Visits (Directory.step userIdOf) (.start shards) pre e ->
          Identified e) -> u.created.length < 65536)) ?_ ?_ hrun
    · exact hhistory.right hall
    · exact ⟨rfl, fun _ => Nat.zero_lt_succ _⟩
    · intro pre event u v hu hstep
      rcases hu with ⟨hpre, hu⟩
      have hrun' := runFrom_snoc_of_run hpre hstep
      refine ⟨hrun', fun hvisited => ?_⟩
      have hfew := hu fun e he => hvisited e (he.append [event])
      rcases created_step hstep with hsame | ⟨hone, hlive⟩
      · rw [hsame]
        exact hfew
      · rw [hone, List.length_cons]
        by_contra hmany
        have hlast : u.manager.nextId = 65536 := by
          rw [((issued_preserved userIdOf).run (Issued.start shards) hpre).count]
          omega
        rw [hlast] at hlive
        exact not_identified_of_live hlive (hvisited v (visits_last hrun'))
  · intro hfew e hvisit
    have hissued := (issued_preserved userIdOf).visits (Issued.start shards)
      hvisit
    rcases hvisit.rest hrun with ⟨later, hlater⟩
    have hle := (created_mono e.created.length).run (Nat.le_refl _) hlater
    exact identified_of_few hissued (Nat.lt_of_le_of_lt hle hfew)

/-- The first two users of a server. -/
def firstUsers : List Directory.Event :=
  [.create 3, .create 4, .setName 1 (text "ann"), .setName 2 (text "bob")]

theorem wire_ids_identify_iff_first :
    exists d, runFrom (Directory.step nameNumber) (.start 8) firstUsers = some d ∧
      d.Live 1 ∧ d.Live 2 ∧ d.manager.isNamed 1 = true ∧
      d.manager.isNamed 2 = true ∧
      forall e, Visits (Directory.step nameNumber) (.start 8) firstUsers e ->
        Identified e := by
  have hrun : (runFrom (Directory.step nameNumber) (.start 8) firstUsers).map
      (fun d => (d.created.length, (d.manager.byId.lookup 1).isSome,
        (d.manager.byId.lookup 2).isSome, d.manager.isNamed 1,
        d.manager.isNamed 2)) = some (2, true, true, true, true) := by
    decide +kernel
  rcases Option.map_eq_some_iff.mp hrun with ⟨d, hd, hfields⟩
  simp only [Prod.mk.injEq] at hfields
  rcases hfields with ⟨hcount, hann, hbob, hannNamed, hbobNamed⟩
  exact ⟨d, hd, Option.isSome_iff_exists.mp hann, Option.isSome_iff_exists.mp hbob,
    hannNamed, hbobNamed, (wire_ids_identify_iff hd).mpr (by omega)⟩

/-!
# A long-lived server
-/

/-- Connections that come and go one at a time. -/
def churn : Nat -> List Directory.Event
  | 0 => []
  | n + 1 => churn n ++ [.create 3, .destroy (n + 1)]

/-- While a slot is free, `Create` registers the next id. -/
theorem create_run (userIdOf : List UInt8 -> Nat) {d : Directory}
    (h : Issued d) (hfree : d.manager.pool.freeList ≠ []) :
    exists slot e, d.step userIdOf (.create 3) = some e ∧ Issued e ∧
      e.created.length = d.created.length + 1 ∧
      e.manager.byId.lookup (d.created.length + 1) = some slot := by
  cases hcreate : d.manager.create 3 with
  | none => exact absurd ((create_eq_none_iff d.manager 3).mp hcreate) hfree
  | some made =>
      rcases made with ⟨slot, m⟩
      have hstep : d.step userIdOf (.create 3) = some { d with
          manager := m
          created := d.manager.nextId :: d.created } := by
        simp only [Directory.step]
        rw [hcreate]
      refine ⟨slot, _, hstep, issued_preserved userIdOf d _ _ h hstep, rfl, ?_⟩
      show m.byId.lookup _ = some slot
      rw [(create_created hcreate).byId, ← h.count]
      exact AList.lookup_insert _

/-- After `n` of them nobody is left, and `n` ids are used up. -/
theorem churn_run (userIdOf : List UInt8 -> Nat) (shards n : Nat) :
    exists d, runFrom (Directory.step userIdOf) (.start shards) (churn n) =
        some d ∧
      Issued d ∧ d.created.length = n ∧ d.manager.pool.freeList ≠ [] := by
  induction n with
  | zero =>
      refine ⟨_, rfl, Issued.start shards, rfl, ?_⟩
      intro hnil
      have hmem := List.mem_finRange (0 : Fin 1000)
      rw [← ObjectPool.freeList_create Session.constructed] at hmem
      replace hnil : (ObjectPool.create Session.constructed :
        ObjectPool Session 1000).freeList = [] := hnil
      rw [hnil] at hmem
      cases hmem
  | succ n ih =>
      rcases ih with ⟨d, hrun, hissued, hlength, hfree⟩
      rcases create_run userIdOf hissued hfree with
        ⟨slot, e, hcreate, hissuedE, hlengthE, hlive⟩
      rw [hlength] at hlengthE hlive
      have hdestroy : e.step userIdOf (.destroy (n + 1)) =
          some { e with manager := e.manager.destroy slot } := by
        simp only [Directory.step]
        rw [hlive]
      have hrest : runFrom (Directory.step userIdOf) d
          [.create 3, .destroy (n + 1)] =
          some { e with manager := e.manager.destroy slot } := by
        rw [runFrom_cons_of_step _ hcreate, runFrom_cons_of_step _ hdestroy]
        rfl
      refine ⟨{ e with manager := e.manager.destroy slot }, ?_, ?_, hlengthE, ?_⟩
      · show runFrom _ _ (churn n ++ _) = _
        rw [runFrom_append_of_run _ hrun]
        exact hrest
      · exact issued_preserved userIdOf e _ _ hissuedE hdestroy
      · exact List.cons_ne_nil _ _

/-- Session 65536 is the one after 65535 short connections. -/
theorem wire_ids_wrap :
    exists d, runFrom (Directory.step nameNumber) (.start 8)
        (churn 65535 ++ [.create 3]) = some d ∧ ¬ Identified d := by
  rcases churn_run nameNumber 8 65535 with ⟨d, hrun, hissued, hlength, hfree⟩
  rcases create_run nameNumber hissued hfree with
    ⟨slot, e, hcreate, _, _, hlive⟩
  rw [hlength] at hlive
  exact ⟨e, runFrom_snoc_of_run hrun hcreate,
    not_identified_of_live ⟨slot, hlive⟩⟩

end Clients
end ContentServer
