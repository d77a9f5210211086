import ContentServer.Clients.WireIds
import ContentServer.Consumers.Origins
import ContentServer.Protocol.Canonical

/-!
# Whose words are sent

Everything that a session is sent is a packet.  Under id zero it is a message of
the server or the announcement of a name that was given; under any other id it
is a part of a line that the session of this id sent itself.
-/

namespace ContentServer
namespace Clients

open Foundation Protocol Sessions Registry Storage Consumers

variable {double : Type} [One double] {pg : Postgres double} {s t : Service pg}

/-!
# Packets by their id
-/

theorem frame_encode_injective {f g : Frame} (hf : f.Legal) (hg : g.Legal)
    (h : f.encode = g.encode) : f = g := by
  have hlists : [f] = [g] := by
    apply flatMap_encode_injective
    · intro x hx
      rw [List.mem_singleton.mp hx]
      exact hf
    · intro x hx
      rw [List.mem_singleton.mp hx]
      exact hg
    · rw [List.flatMap_singleton, List.flatMap_singleton, h]
  exact List.head_eq_of_cons_eq hlists

/-- The packet of a text. -/
theorem frame_makePacket (id : UInt16) (t : List UInt8) :
    (makePacket id t).frame = ⟨id, t.take MESSAGE_SIZE⟩ := by
  unfold Packet.frame
  rw [body_makePacket]
  rfl

theorem encode_makePacket (id : UInt16) (t : List UInt8) :
    (⟨id, t.take MESSAGE_SIZE⟩ : Frame).Legal ∧
      (makePacket id t).wire = (⟨id, t.take MESSAGE_SIZE⟩ : Frame).encode := by
  rw [← frame_makePacket]
  exact wire_makePacket_eq_encode id t

/-- The packet that announces a name. -/
theorem encode_nickPacket {id : Nat} {name : List UInt8} (hid : id < 65536)
    (hname : validName name = true) :
    (⟨0, nickLine id name⟩ : Frame).Legal ∧
      (nickPacket id name).wire = (⟨0, nickLine id name⟩ : Frame).encode := by
  have hencode := wire_makePacket_eq_encode 0 (nickLine id name)
  have hframe : (makePacket 0 (nickLine id name)).frame = ⟨0, nickLine id name⟩ := by
    have hbody : _ = nickLine id name :=
      body_nickPacket (Nat.lt_of_lt_of_le hid (by decide)) hname
    unfold Packet.frame
    rw [show (makePacket 0 (nickLine id name)).body = _ from hbody]
    rfl
  rw [hframe] at hencode
  exact hencode

theorem plain_take {t : List UInt8} (h : Plain t) : Plain (t.take MESSAGE_SIZE) := by
  rcases t with _ | ⟨c, t⟩
  · exact absurd rfl h.notEmpty
  · exact ⟨List.cons_ne_nil _ _, h.head⟩

/-- What a session may be sent in this state, in the form of a packet. -/
inductive Said (past : List (Service.Label double)) (s : Service pg) : Frame -> Prop
  | notice (body : List UInt8) (plain : Plain body) : Said past s ⟨0, body⟩
  | nick (id : Nat) (name : List UInt8) (named : (id, name) ∈ s.stores.named) :
      Said past s ⟨0, nickLine id name⟩
  | spoken (id : Nat) (pkt : Packet) (body : List UInt8)
      (received : .receive id pkt ∈ past) (positive : 0 < id)
      (issued : id < s.stores.manager.nextId) (part : body <:+: pkt.body) :
      Said past s ⟨UInt16.ofNat id, body⟩

/-- As long as the ids fit the header, every text is a packet of one of the kinds. -/
theorem said_of_sent {past : List (Service.Label double)} (h : Spoken past s)
    (hfew : s.stores.manager.nextId ≤ 65536) {msg : ShardMsg} {d : Sending}
    (he : (msg, d) ∈ s.stores.sent) :
    exists f : Frame, f.Legal ∧ d.data = f.encode ∧ Said past s f := by
  rcases h.sourced.sent _ he with ⟨horigin, hclient, huttered⟩
  rcases h.traced _ he with ⟨t, hplain, hdata⟩ | hrelayed | ⟨id, name, hnamed, hdata⟩
  · have hencode := encode_makePacket 0 t
    exact ⟨_, hencode.left, hdata.trans hencode.right, .notice _ (plain_take hplain)⟩
  · cases horigin with
    | trade fromSid target positive issued => cases hclient
    | client id pkt received positive issued low high =>
        have hid := ofNat_ne_zero positive (Nat.lt_of_lt_of_le issued hfew)
        have hchat := wire_eq_encode (p := (clientMsg id pkt).pkt) low high
        have hkind : exists g : Frame, g.Legal ∧ d.data = g.encode ∧
            g.id = UInt16.ofNat id := by
          rcases hrelayed with ⟨_, hdata⟩ | ⟨_, t, hdata⟩
          · exact ⟨_, hchat.left, hdata.trans hchat.right, rfl⟩
          · have hencode := encode_makePacket (UInt16.ofNat id) t
            exact ⟨_, hencode.left, hdata.trans hencode.right, rfl⟩
        rcases hkind with ⟨g, hlegal, hg, hgid⟩
        -- packets of the server carry another id
        have hserver : forall t, d.data ≠ (makePacket 0 t).wire := by
          intro t hdata
          have hencode := encode_makePacket 0 t
          have hsame := frame_encode_injective hlegal hencode.left
            (hg.symm.trans (hdata.trans hencode.right))
          rw [hsame] at hgid
          exact hid hgid.symm
        rcases huttered with ⟨t, hdata⟩ | ⟨t, _, hpart, hdata⟩ | hdata | ⟨i, n, hdata⟩
        · exact absurd hdata (hserver t)
        · have hencode := encode_makePacket (UInt16.ofNat id) t
          refine ⟨_, hencode.left, hdata.trans hencode.right,
            .spoken id pkt _ received positive issued ?_⟩
          exact (List.take_prefix _ t).isInfix.trans hpart
        · exact ⟨_, hchat.left, hdata.trans hchat.right,
            .spoken id pkt _ received positive issued (List.infix_refl _)⟩
        · exact absurd hdata (hserver _)
  · have hvalid := h.sourced.valid id name hnamed
    have hold := (h.attested.registry.named id name hnamed).left
    have hid : id < 65536 := Nat.lt_of_lt_of_le hold hfew
    have hencode := encode_nickPacket hid hvalid
    exact ⟨_, hencode.left, hdata.trans hencode.right, .nick id name hnamed⟩

/--
Nobody can put words into the mouth of another.  While the server has given out
fewer than 65536 session ids, all that any session is sent is one packet after
the other; a packet under id zero is a message of the server or announces a name
that was given to the session it names, and a packet under any other id is a part
of a line that the server received from the session of this id.
-/
theorem speech_is_authentic {shards : Nat} {db : Db pg} {friendships : Friendships}
    {ranking : Ranking} {labels : List (Service.Label double)}
    (husers : Numbered db.users)
    (hrun : runFrom Service.step
      (Service.start (Stores.boot shards db friendships ranking)) labels = some t)
    (hfew : t.stores.created.length < 65536) :
    forall msg d, (msg, d) ∈ t.stores.sent ->
      exists f : Frame, f.Legal ∧ d.data = f.encode ∧
        (f.id = 0 -> Plain f.body ∨ exists id name, (id, name) ∈ t.stores.named ∧
          f.body = nickLine id name) ∧
        (f.id ≠ 0 -> exists pkt, .receive f.id.toNat pkt ∈ labels ∧
          f.body <:+: pkt.body) := by
  intro msg d he
  have h := spoken_run husers hrun
  have hnext : t.stores.manager.nextId ≤ 65536 := by
    have hcount := h.attested.registry.count
    show t.stores.directory.manager.nextId ≤ 65536
    rw [hcount]
    exact hfew
  rcases said_of_sent h hnext he with ⟨f, hlegal, hdata, hsaid⟩
  refine ⟨f, hlegal, hdata, ?_⟩
  cases hsaid with
  | notice body plain => exact ⟨fun _ => Or.inl plain, fun hne => absurd rfl hne⟩
  | nick id name named =>
      exact ⟨fun _ => Or.inr ⟨id, name, named, rfl⟩, fun hne => absurd rfl hne⟩
  | spoken id pkt body received positive issued part =>
      have hlt : id < 65536 := Nat.lt_of_lt_of_le issued hnext
      refine ⟨fun hzero => absurd hzero (ofNat_ne_zero positive hlt),
        fun _ => ⟨pkt, ?_, part⟩⟩
      have hnat : (UInt16.ofNat id).toNat = id := by
        rw [UInt16.toNat_ofNat', Nat.mod_eq_of_lt hlt]
      show Service.Label.receive (UInt16.ofNat id).toNat pkt ∈ labels
      rw [hnat]
      exact received

theorem speech_is_authentic_chat :
    exists t, runFrom Service.step Service.fresh Service.chatsAndStays = some t ∧
      forall msg d, (msg, d) ∈ t.stores.sent ->
        exists f : Frame, f.Legal ∧ d.data = f.encode ∧
          (f.id = 0 -> Plain f.body ∨ exists id name, (id, name) ∈ t.stores.named ∧
            f.body = nickLine id name) ∧
          (f.id ≠ 0 -> exists pkt, .receive f.id.toNat pkt ∈ Service.chatsAndStays ∧
            f.body <:+: pkt.body) := by
  have hcount : (runFrom Service.step Service.fresh Service.chatsAndStays).map
      (fun t => t.stores.created.length) = some 1 := by decide +kernel
  rcases Option.map_eq_some_iff.mp hcount with ⟨t, hrun, hone⟩
  exact ⟨t, hrun, speech_is_authentic numbered_empty hrun (by omega)⟩

end Clients
end ContentServer
