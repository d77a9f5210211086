import ContentServer.Clients.Speech
import ContentServer.Consumers.Audiences

/-!
# Private words

A whisper is heard by the session that it names and by nobody else, and a line for
friends by users who have been friends of the speaker.  A packet under the id of a
session always says what a line of this session says, all of it, and to somebody for
whom the line is.
-/

namespace ContentServer
namespace Clients

open Foundation Protocol Sessions Registry Storage Consumers

variable {double : Type} [One double] {pg : Postgres double} {t : Service pg}

/-- Those to whom a session may be heard to say this. -/
def Entitled (start : Service pg) (past : List (Service.Label double))
    (bound : List (Nat × Nat)) (speaker recipient : Nat) : Speech -> Prop
  | .toAll _ => True
  | .whisper target _ => recipient = target ∨ recipient = speaker
  | .toFriends _ => recipient = speaker ∨ exists u v, (speaker, u) ∈ bound ∧
      (recipient, v) ∈ bound ∧ BeenFriends start past u v

theorem entitled_self (start : Service pg) (past : List (Service.Label double))
    (bound : List (Nat × Nat)) (speaker : Nat) (sp : Speech) :
    Entitled start past bound speaker speaker sp := by
  cases sp with
  | toAll words => trivial
  | whisper target words => exact Or.inr rfl
  | toFriends words => exact Or.inl rfl

/-- The packet carries the words of a line of its sender, to somebody who may hear them. -/
def Entrusted (start : Service pg) (past : List (Service.Label double))
    (bound : List (Nat × Nat)) (f : Frame) (recipient : Nat) : Prop :=
  exists pkt sp, .receive f.id.toNat pkt ∈ past ∧ speechOf pkt.body = some sp ∧
    f.body = sp.words ∧ Entitled start past bound f.id.toNat recipient sp

/-- While its id fits the header, the sender can be told from the packet. -/
theorem entrusted {start : Service pg} {past : List (Service.Label double)}
    {bound : List (Nat × Nat)} {id recipient : Nat} {pkt : Packet} {sp : Speech}
    (hid : id < 65536) (hreceived : .receive id pkt ∈ past)
    (hsaid : speechOf pkt.body = some sp)
    (hentitled : Entitled start past bound id recipient sp) :
    Entrusted start past bound ⟨UInt16.ofNat id, sp.words⟩ recipient := by
  have hnat : (UInt16.ofNat id).toNat = id := by
    rw [UInt16.toNat_ofNat', Nat.mod_eq_of_lt hid]
  refine ⟨pkt, sp, ?_, hsaid, rfl, ?_⟩
  · rw [hnat]
    exact hreceived
  · rw [hnat]
    exact hentitled

omit [One double] in
/-- The words of a line fit into one packet. -/
theorem encode_senderPacket (id : Nat) {pkt : Packet} {sp : Speech}
    (h : speechOf pkt.body = some sp) :
    (⟨UInt16.ofNat id, sp.words⟩ : Frame).Legal ∧
      (senderPacket id sp.words).wire = (⟨UInt16.ofNat id, sp.words⟩ : Frame).encode := by
  have hlength : sp.words.length ≤ MESSAGE_SIZE := by
    refine (words_part h).length_le.trans ?_
    unfold Packet.body
    rw [List.length_take, pkt.length_message]
    exact Nat.min_le_right _ _
  have hencode := encode_makePacket (UInt16.ofNat id) sp.words
  rw [List.take_of_length_le hlength] at hencode
  exact hencode

/--
What is said in private stays private.  While the server has given out fewer than
65536 session ids, a packet under an id other than zero carries the words of a line
that was received from the session of this id, whole; and if the line is a whisper
the packet went to the session that it names or back to the speaker, and if it is for
friends, back to the speaker or to a session of a user who was a friend of the user of
the speaker in some state of the run.
-/
theorem private_words_stay_private {shards : Nat} {db : Db pg} {friendships : Friendships}
    {ranking : Ranking} {labels : List (Service.Label double)}
    (husers : Numbered db.users)
    (hrun : runFrom Service.step
      (Service.start (Stores.boot shards db friendships ranking)) labels = some t)
    (hfew : t.stores.created.length < 65536) :
    forall msg d, (msg, d) ∈ t.stores.sent ->
      exists f : Frame, f.Legal ∧ d.data = f.encode ∧
        (f.id ≠ 0 -> Entrusted (Service.start (Stores.boot shards db friendships ranking))
          labels t.stores.bound f d.sessionId) := by
  intro msg d he
  have hspoken := spoken_run husers hrun
  have hnext : t.stores.manager.nextId ≤ 65536 := by
    have hcount := hspoken.attested.registry.count
    show t.stores.directory.manager.nextId ≤ 65536
    rw [hcount]
    exact hfew
  rcases hspoken.sourced.sent _ he with ⟨horigin, hclient, _⟩
  have htold := (audience_run husers hrun).told msg d he
  cases horigin with
  | trade fromSid target positive issued => cases hclient
  | client id pkt received positive issued low high =>
      have hid : id < 65536 := Nat.lt_of_lt_of_le issued hnext
      cases htold with
      | server t data =>
          have hencode := encode_makePacket 0 t
          exact ⟨_, hencode.left, data.trans hencode.right, fun hne => absurd rfl hne⟩
      | chat line data =>
          have hencode := wire_eq_encode (p := (clientMsg id pkt).pkt) low high
          exact ⟨_, hencode.left, data.trans hencode.right,
            fun _ => entrusted hid received line trivial⟩
      | echo sp line own data =>
          have hencode := encode_senderPacket id line
          refine ⟨_, hencode.left, data.trans hencode.right, fun _ => ?_⟩
          rw [own]
          exact entrusted hid received line (entitled_self _ _ _ id sp)
      | whisper words line data =>
          have hencode := encode_senderPacket id line
          exact ⟨_, hencode.left, data.trans hencode.right,
            fun _ => entrusted hid received line (Or.inl rfl)⟩
      | friend words u v line user friend friends data =>
          have hencode := encode_senderPacket id line
          exact ⟨_, hencode.left, data.trans hencode.right,
            fun _ => entrusted hid received line (Or.inr ⟨u, v, user, friend, friends⟩)⟩

/-- Two friends talk in private. -/
def confides : List (Service.Label Nat) :=
  Service.befriends ++ List.flatten [Service.say 1 "/w 2 psst", Service.acts 1 3,
    Service.say 1 "/f hello", Service.acts 1 4]

/-- The recipients and the texts of what was sent last. -/
def lastWords (t : Service percentServer) : List (Nat × List UInt8) :=
  (t.stores.sent.take 4).map fun e => (e.2.sessionId, e.2.data.drop 4)

theorem private_words_stay_private_confides :
    exists t, runFrom Service.step Service.fresh confides = some t ∧
      lastWords t = [(1, text "hello"), (2, text "hello"), (1, text "psst"),
        (2, text "psst")] ∧
      forall msg d, (msg, d) ∈ t.stores.sent ->
        exists f : Frame, f.Legal ∧ d.data = f.encode ∧
          (f.id ≠ 0 -> Entrusted Service.fresh confides t.stores.bound f d.sessionId) := by
  have hrun : (runFrom Service.step Service.fresh confides).map
      (fun t => (t.stores.created.length, lastWords t)) =
        some (2, [(1, text "hello"), (2, text "hello"), (1, text "psst"),
          (2, text "psst")]) := by
    decide +kernel
  rcases Option.map_eq_some_iff.mp hrun with ⟨t, hrun, hholds⟩
  rcases Prod.mk.inj hholds with ⟨hcount, hwords⟩
  exact ⟨t, hrun, hwords, private_words_stay_private numbered_empty hrun (by omega)⟩

end Clients
end ContentServer
