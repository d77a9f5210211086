import ContentServer.Clients.ReceiveLoop
import ContentServer.Clients.Speech
import ContentServer.Foundation.Simulation

/-!
# The names that a client knows

The bytes that reach a client are the beginning of all texts that were taken
into the send buffer of its session.  The table that the client fills from them
only has names that the server gave out, and it has the names of all sessions
whose logins are done.
-/

namespace ContentServer
namespace Clients

open Foundation Protocol Sessions Registry Storage Consumers

variable {double : Type} {pg : Postgres double}

/-!
# The stream of a session
-/

/-- The calls of `Session::Send` that a step makes, in order. -/
def sendings (s : Service pg) : Service.Label double -> List Sending
  | .act shard env =>
      match s.consumers shard with
      | some ⟨_, _, .call o _⟩ => (s.stores.apply shard env o).2.2
      | _ => []
  | _ => []

/-- The service, with its calls of `Session::Send` as its output. -/
def sending [One double] : Machine (Service pg) (Service.Label double) Sending :=
  fun s label => (s.step label).map fun t => (t, sendings s label)

/-- The bytes that a session took into its send buffer. -/
def stream (id : Nat) (out : List Sending) : List UInt8 :=
  (out.filter fun d => d.sessionId = id && d.accepted).flatMap Sending.data

/-- A step adds its sendings to what was sent. -/
theorem sent_step [One double] {s t : Service pg} {label : Service.Label double}
    (h : s.step label = some t) :
    t.stores.sent.map Prod.snd = sendings s label ++ s.stores.sent.map Prod.snd := by
  cases Service.step_effect h with
  | taken shard msg rest waits queue =>
      rw [Service.goOn_stores]
      rfl
  | acted shard env msg log o next works =>
      have hout : sendings s (.act shard env) =
          (s.stores.apply shard env o).2.2 := by
        unfold sendings
        simp only [works]
      rw [Service.goOn_stores, hout]
      unfold Stores.perform
      simp only [List.map_append, List.map_map]
      congr 1
      exact List.map_id _
  | _ => rfl

/-- The outputs of a run are what was sent in it. -/
theorem trace_sending [One double] {s t : Service pg}
    {labels : List (Service.Label double)} {out : List Sending}
    (h : sending.trace s labels = some (t, out)) :
    runFrom Service.step s labels = some t ∧
      forall d, d ∈ t.stores.sent.map Prod.snd <->
        d ∈ out ∨ d ∈ s.stores.sent.map Prod.snd := by
  induction labels generalizing s out with
  | nil =>
      cases h
      exact ⟨rfl, fun d => ⟨Or.inr, fun hor => hor.resolve_left (by simp)⟩⟩
  | cons label rest ih =>
      rcases Machine.trace_cons_some h with ⟨u, first, more, hstep, hrest, rfl⟩
      rcases Option.map_eq_some_iff.mp hstep with ⟨v, hv, heq⟩
      cases heq
      rcases ih hrest with ⟨hrun, hsent⟩
      refine ⟨by rw [runFrom_cons_of_step _ hv]; exact hrun, fun d => ?_⟩
      rw [hsent, sent_step hv, List.mem_append, List.mem_append]
      exact ⟨fun h => by tauto, fun h => by tauto⟩

/-!
# The packets of a stream
-/

theorem exists_frames {P : Frame -> Prop} {ds : List Sending}
    (h : forall d, d ∈ ds -> exists f, P f ∧ d.data = f.encode) :
    exists frames : List Frame, ds.map Sending.data = frames.map Frame.encode ∧
      forall f, f ∈ frames -> P f := by
  induction ds with
  | nil => exact ⟨[], rfl, fun f hf => (by cases hf)⟩
  | cons d ds ih =>
      rcases h d List.mem_cons_self with ⟨f, hf, hdata⟩
      rcases ih fun e he => h e (List.mem_cons_of_mem d he) with ⟨frames, hmap, hall⟩
      refine ⟨f :: frames, ?_, ?_⟩
      · rw [List.map_cons, List.map_cons, hdata, hmap]
      · intro g hg
        rcases List.mem_cons.mp hg with rfl | hg
        · exact hf
        · exact hall g hg

/-- A stream is one packet after the other, and all that was sent is in it. -/
theorem frames_of_stream [One double] {past : List (Service.Label double)}
    {t : Service pg} (h : Spoken past t) (hfew : t.stores.manager.nextId ≤ 65536)
    (id : Nat) {out : List Sending}
    (hout : forall d, d ∈ out -> d ∈ t.stores.sent.map Prod.snd) :
    exists frames : List Frame, stream id out = frames.flatMap Frame.encode ∧
      (forall f, f ∈ frames -> f.Legal ∧ Said past t f) ∧
      forall d, d ∈ out -> d.sessionId = id -> d.accepted = true ->
        exists f, f ∈ frames ∧ d.data = f.encode := by
  have hsaid : forall d, d ∈ out.filter (fun d => d.sessionId = id && d.accepted) ->
      exists f : Frame, (f.Legal ∧ Said past t f) ∧ d.data = f.encode := by
    intro d hd
    rcases List.mem_map.mp (hout d (List.mem_filter.mp hd).left) with ⟨⟨msg, e⟩, he, rfl⟩
    rcases said_of_sent h hfew he with ⟨f, hlegal, hdata, hsaid⟩
    exact ⟨f, ⟨hlegal, hsaid⟩, hdata⟩
  rcases exists_frames hsaid with ⟨frames, hmap, hall⟩
  refine ⟨frames, ?_, hall, ?_⟩
  · unfold stream
    rw [List.flatMap_def, hmap, ← List.flatMap_def]
  · intro d hd hid haccepted
    have hmem : d.data ∈ frames.map Frame.encode := by
      rw [← hmap]
      refine List.mem_map.mpr ⟨d, List.mem_filter.mpr ⟨hd, ?_⟩, rfl⟩
      simp [hid, haccepted]
    rcases List.mem_map.mp hmem with ⟨f, hf, hdata⟩
    exact ⟨f, hf, hdata.symm⟩

/-!
# What a packet does to the table
-/

namespace ChatUI

/-- A message of the server is no announcement. -/
theorem names_handleControl_of_plain (ui : ChatUI) {body : List UInt8}
    (h : Plain body) : (ui.handleControl body).names = ui.names := by
  unfold handleControl
  split
  · rename_i kind idText name hfields
    have hkind : kind ≠ text "NICK" := by
      intro hnick
      have hfirst : some kind = some (body.takeWhile (· ≠ 32)) := by
        rw [← head?_splitN 32 1 body, hfields]
        rfl
      rw [hnick] at hfirst
      rcases body with _ | ⟨c, body⟩
      · exact h.notEmpty rfl
      · rw [List.takeWhile_cons] at hfirst
        split at hfirst
        · exact h.head (congrArg some (List.cons.inj (Option.some.inj hfirst)).left.symm)
        · cases hfirst
    rw [if_neg hkind]
    rfl
  · rfl

/-- The table after a packet that a session may be sent. -/
theorem names_showPacket_of_said {past : List (Service.Label double)} {s : Service pg}
    {f : Frame} (h : Said past s f) (hfew : s.stores.manager.nextId ≤ 65536)
    (hold : forall id name, (id, name) ∈ s.stores.named -> id < s.stores.manager.nextId)
    (ui : ChatUI) :
    (ui.showPacket f.id f.body).names = ui.names ∨
      exists id name, (id, name) ∈ s.stores.named ∧ f = ⟨0, nickLine id name⟩ ∧
        (ui.showPacket f.id f.body).names =
          ui.names.insert (UInt16.ofNat id) name := by
  cases h with
  | notice body plain => exact Or.inl (ui.names_handleControl_of_plain plain)
  | nick id name named =>
      refine Or.inr ⟨id, name, named, rfl, ?_⟩
      show (ui.handleControl (nickLine id name)).names = _
      rw [ui.handleControl_nickLine name (Nat.lt_of_lt_of_le (hold id name named) hfew)]
  | spoken id pkt body received positive issued part =>
      left
      unfold showPacket
      rw [if_neg (ofNat_ne_zero positive (Nat.lt_of_lt_of_le issued hfew))]
      rfl

end ChatUI

/-- The table has only names that were given to the sessions that it names. -/
def Knows (s : Service pg) (ui : ChatUI) : Prop :=
  forall key name, ui.names.lookup key = some name ->
    exists id, UInt16.ofNat id = key ∧ (id, name) ∈ s.stores.named

/-- What the table has after packets that a session may be sent. -/
theorem Knows.showPackets {past : List (Service.Label double)} {s : Service pg}
    {frames : List Frame} (hsaid : forall f, f ∈ frames -> Said past s f)
    (hfew : s.stores.manager.nextId ≤ 65536)
    (hold : forall id name, (id, name) ∈ s.stores.named -> id < s.stores.manager.nextId)
    {ui : ChatUI} (h : Knows s ui) :
    Knows s (ui.showPackets (frames.map packetOf)) ∧
      (forall key, key ∈ ui.names ->
        key ∈ (ui.showPackets (frames.map packetOf)).names) ∧
      forall id name, id < 65536 -> ⟨0, nickLine id name⟩ ∈ frames ->
        UInt16.ofNat id ∈ (ui.showPackets (frames.map packetOf)).names := by
  induction frames generalizing ui with
  | nil => exact ⟨h, fun key hkey => hkey, fun id name _ hmem => (by cases hmem)⟩
  | cons f frames ih =>
      have hfirst : Knows s (ui.showPacket f.id f.body) ∧
          forall key, key ∈ ui.names -> key ∈ (ui.showPacket f.id f.body).names := by
        rcases ui.names_showPacket_of_said (hsaid f List.mem_cons_self) hfew hold with
          hsame | ⟨id, name, hnamed, _, hinsert⟩
        · unfold Knows
          rw [hsame]
          exact ⟨h, fun key hkey => hkey⟩
        · unfold Knows
          rw [hinsert]
          constructor
          · intro key other hlookup
            by_cases hkey : key = UInt16.ofNat id
            · rw [hkey, AList.lookup_insert] at hlookup
              cases hlookup
              exact ⟨id, hkey.symm, hnamed⟩
            · rw [AList.lookup_insert_ne hkey] at hlookup
              exact h key other hlookup
          · intro key hkey
            exact (AList.mem_insert _).mpr (Or.inr hkey)
      rcases ih (fun g hg => hsaid g (List.mem_cons_of_mem f hg)) hfirst.left with
        ⟨hknows, hmono, hnick⟩
      refine ⟨hknows, fun key hkey => hmono key (hfirst.right key hkey), ?_⟩
      intro id name hid hmem
      rcases List.mem_cons.mp hmem with rfl | hlater
      · apply hmono
        show UInt16.ofNat id ∈ (ui.handleControl (nickLine id name)).names
        rw [ui.handleControl_nickLine name hid]
        exact (AList.mem_insert _).mpr (Or.inl rfl)
      · exact hnick id name hid hlater

/-!
# The names that are shown
-/

/-- A client reads packets off the front of what is sent to it. -/
theorem recvPackets_of_initial {frames : List Frame} {bytes : List UInt8}
    (hlegal : forall f, f ∈ frames -> f.Legal)
    (hinitial : bytes <+: frames.flatMap Frame.encode) :
    (recvPackets bytes).2 ≠ .badPacket ∧
      exists read, read <+: frames ∧ (recvPackets bytes).1 = read.map packetOf := by
  have hparse := parseStream_encode hlegal
  have hgood : (packetCodec.parse (frames.flatMap Frame.encode)).bad = false := by
    rw [packetCodec_parse, hparse]
  have hread := packetCodec.frames_initial hinitial hgood
  rw [packetCodec_parse, packetCodec_parse, hparse] at hread
  rcases recvPackets_of_good hread.left with ⟨hshown, hend⟩
  exact ⟨hend, _, hread.right, hshown⟩

variable [One double] {shards : Nat} {db : Db pg} {friendships : Friendships}
variable {ranking : Ranking} {labels : List (Service.Label double)} {t : Service pg}

theorem heard_run (husers : Numbered db.users)
    (hrun : runFrom Service.step
      (Service.start (Stores.boot shards db friendships ranking)) labels = some t) :
    t.Heard := by
  refine (Preserved.run (I := fun s => Attested s ∧ s.Heard) ?_
    ⟨Attested.start shards db friendships ranking husers, ?_⟩ hrun).right
  · intro s label u h hstep
    exact ⟨attested_step s label u h.left hstep,
      heard_step h.left h.right (Service.step_effect hstep)⟩
  · intro id other name _ hid
    exact absurd hid (AList.notMem_empty id)

/-- A session is announced to every other one in a packet of its stream. -/
theorem nick_mem_frames {frames : List Frame} {past : List (Service.Label double)}
    (h : Spoken past t) (hheard : t.Heard) (hnext : t.stores.manager.nextId ≤ 65536)
    {out : List Sending} (hall : forall d, d ∈ t.stores.sent.map Prod.snd -> d ∈ out)
    {id other : Nat} {own name : List UInt8} (hne : id ≠ other)
    (hid : id ∈ t.stores.manager.byId) (hother : other ∈ t.stores.manager.byId)
    (hdone : t.NickDone id own) (hdone' : t.NickDone other name)
    (hlegal : forall f, f ∈ frames -> f.Legal)
    (hframes : forall d, d ∈ out -> d.sessionId = id ->
      exists f, f ∈ frames ∧ d.data = f.encode) :
    (other, name) ∈ t.stores.named ∧ other < 65536 ∧ ⟨0, nickLine other name⟩ ∈ frames := by
  have hroster := (hdone.announced h.attested).left
  have hannounced := (hdone'.announced h.attested).right
  have hnamed := hannounced.named h.attested
  have hlt : other < 65536 :=
    Nat.lt_of_lt_of_le (h.attested.registry.named other name hnamed).left hnext
  rcases hheard id other name hne hid hother hroster hannounced with
    ⟨e, he, hsession, hdata⟩
  rcases hframes e.2 (hall e.2 (List.mem_map.mpr ⟨e, he, rfl⟩)) hsession with
    ⟨f, hf, hencode⟩
  have hnick := encode_nickPacket hlt (h.sourced.valid other name hnamed)
  have hsame : f = ⟨0, nickLine other name⟩ :=
    frame_encode_injective (hlegal f hf) hnick.left
      (hencode.symm.trans (hdata.trans hnick.right))
  exact ⟨hnamed, hlt, hsame ▸ hf⟩

/--
While the server has given out fewer than 65536 session ids, a client never finds
a bad packet in what its session sends, and its table never has a name for an id
but the one that the server gave to this session.  Once its login and that of
another live session are done and no text to it was dropped, it shows the other
session under its name.
-/
theorem client_knows_names {out : List Sending} (husers : Numbered db.users)
    (htrace : sending.trace (Service.start (Stores.boot shards db friendships ranking))
      labels = some (t, out))
    (hfew : t.stores.created.length < 65536) (id : Nat) {ui : ChatUI}
    (hempty : ui.names = ∅) :
    (forall bytes, bytes <+: stream id out ->
      (recvPackets bytes).2 ≠ .badPacket ∧
      forall key name, (ui.shown bytes).names.lookup key = some name ->
        (key.toNat, name) ∈ t.stores.named ∧
        (key.toNat ∈ t.stores.manager.byId ->
          t.stores.manager.nameOf key.toNat = some name)) ∧
    forall other own name, id ≠ other -> id ∈ t.stores.manager.byId ->
      other ∈ t.stores.manager.byId -> t.NickDone id own -> t.NickDone other name ->
      (forall d, d ∈ out -> d.sessionId = id -> d.accepted = true) ->
      (ui.shown (stream id out)).nameFor (UInt16.ofNat other) = name := by
  rcases trace_sending htrace with ⟨hrun, hsent⟩
  have h := spoken_run husers hrun
  have hstanding := h.attested.toStanding
  have hnext : t.stores.manager.nextId ≤ 65536 := by
    show t.stores.directory.manager.nextId ≤ 65536
    rw [hstanding.registry.count]
    exact hfew
  have hold : forall n name, (n, name) ∈ t.stores.named ->
      n < t.stores.manager.nextId :=
    fun n name hnamed => (hstanding.registry.named n name hnamed).left
  have hall : forall d, d ∈ out <-> d ∈ t.stores.sent.map Prod.snd := by
    intro d
    rw [hsent d]
    exact ⟨Or.inl, fun hor => hor.resolve_right List.not_mem_nil⟩
  rcases frames_of_stream h hnext id (fun d hd => (hall d).mp hd) with
    ⟨frames, hstream, hsaid, hframes⟩
  have hlegal : forall f, f ∈ frames -> f.Legal := fun f hf => (hsaid f hf).left
  have hknows : Knows t ui := by
    intro key name hlookup
    rw [hempty] at hlookup
    cases hlookup
  -- the table after any beginning of the stream
  have hshown : forall read, read <+: frames -> Knows t (ui.showPackets (read.map packetOf)) :=
    fun read hread => (hknows.showPackets (fun f hf => (hsaid f (hread.subset hf)).right)
      hnext hold).left
  have hentry : forall {v : ChatUI} {key : UInt16} {name : List UInt8}, Knows t v ->
      v.names.lookup key = some name -> (key.toNat, name) ∈ t.stores.named ∧
        (key.toNat ∈ t.stores.manager.byId ->
          t.stores.manager.nameOf key.toNat = some name) := by
    intro v key name hv hlookup
    rcases hv key name hlookup with ⟨n, rfl, hnamed⟩
    have hnat : (UInt16.ofNat n).toNat = n := by
      rw [UInt16.toNat_ofNat',
        Nat.mod_eq_of_lt (Nat.lt_of_lt_of_le (hold n name hnamed) hnext)]
    rw [hnat]
    exact ⟨hnamed, fun hlive => hstanding.nameOf_of_named hlive hnamed⟩
  rw [hstream]
  constructor
  · intro bytes hinitial
    rcases recvPackets_of_initial hlegal hinitial with ⟨hend, read, hread, hpackets⟩
    refine ⟨hend, fun key name hlookup => hentry (hshown read hread) ?_⟩
    rw [← hpackets]
    exact hlookup
  · intro other own name hne hid hother hdone hdone' hroom
    rcases nick_mem_frames h (heard_run husers hrun) hnext (fun d hd => (hall d).mpr hd)
      hne hid hother hdone hdone' hlegal
      (fun d hd hsession => hframes d hd hsession (hroom d hd hsession)) with
      ⟨hnamed, hlt, hmem⟩
    have hpackets : (recvPackets (frames.flatMap Frame.encode)).1 =
        frames.map packetOf := by
      have hparse := parseStream_encode hlegal
      have hread := recvPackets_of_good (b := frames.flatMap Frame.encode) (by rw [hparse])
      rw [hparse] at hread
      exact hread.left
    have hkey := (hknows.showPackets (fun f hf => (hsaid f hf).right) hnext hold).right.right
      other name hlt hmem
    rcases Option.isSome_iff_exists.mp (AList.lookup_isSome.mpr hkey) with
      ⟨found, hfound⟩
    have hnat : (UInt16.ofNat other).toNat = other := by
      rw [UInt16.toNat_ofNat', Nat.mod_eq_of_lt hlt]
    have hgiven := (hentry (hshown frames (List.prefix_refl _)) hfound).right
    rw [hnat] at hgiven
    have hname := hgiven hother
    rw [hstanding.nameOf_of_named hother hnamed] at hname
    unfold ChatUI.shown ChatUI.nameFor
    rw [hpackets, hfound]
    exact (Option.some.inj hname).symm

/-- In the overlapping logins, ann's client shows bob under his name. -/
theorem client_knows_names_twoLogins :
    exists t out, sending.trace Service.fresh Service.twoLogins = some (t, out) ∧
      ((⟨[], ∅⟩ : ChatUI).shown (stream 1 out)).nameFor 2 = text "bob" := by
  have hholds : (sending.trace Service.fresh Service.twoLogins).map
      (fun r => decide (r.1.stores.created.length < 65536 ∧
        1 ∈ r.1.stores.manager.byId ∧ 2 ∈ r.1.stores.manager.byId ∧
        r.1.NickDone 1 (text "ann") ∧ r.1.NickDone 2 (text "bob") ∧
        forall d, d ∈ r.2 -> d.sessionId = 1 -> d.accepted = true)) = some true := by
    decide +kernel
  rcases Option.map_eq_some_iff.mp hholds with ⟨⟨t, out⟩, htrace, hdecide⟩
  rcases of_decide_eq_true hdecide with ⟨hfew, hann, hbob, hdone, hdone', hroom⟩
  exact ⟨t, out, htrace, (client_knows_names numbered_empty htrace hfew 1 rfl).right
    2 _ _ (by decide) hann hbob hdone hdone' hroom⟩

end Clients
end ContentServer
