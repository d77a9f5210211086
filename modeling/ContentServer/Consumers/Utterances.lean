import ContentServer.Consumers.Addressees

/-!
# What a handler may utter

Three kinds of texts leave a handler: messages of the server under id zero, the
chat line that it handles, and parts of that line under the id of its sender.
Only handlers of client messages send or post anything, and what they post is a
trade request in the name of their session.
-/

namespace ContentServer
namespace Consumers

open Foundation Protocol Sessions Registry Storage

variable {double : Type} {pg : Postgres double}

/-!
# Handlers that keep to a discipline without notes
-/

section Adherence

variable [One double] {discipline : ShardMsg -> Discipline (@Answer double) Unit}

/-- What every consumer still has to do keeps to the discipline of its message. -/
def Service.Adheres (discipline : ShardMsg -> Discipline (@Answer double) Unit)
    (s : Service pg) : Prop :=
  forall k w, s.consumers k = some w ->
    (discipline w.msg).Follows () w.rest (fun _ _ => True)

omit [One double] in
theorem Service.Adheres.goOn {s : Service pg} (h : s.Adheres discipline) {shard : Nat}
    {msg : ShardMsg} {log : Log double} {x : Handler double Unit}
    (hx : (discipline msg).Follows () x (fun _ _ => True)) :
    (s.goOn shard msg log x).Adheres discipline := by
  intro k w hw
  rcases Service.goOn_consumers hw with ⟨_, rfl⟩ | ⟨_, hold⟩
  · exact hx
  · exact h k w hold

/-- If the handler of every message keeps to it, so does every consumer for ever. -/
theorem adheres_preserved
    (hhandle : forall msg, (discipline msg).Follows () (handle msg) (fun _ _ => True)) :
    Preserved (Service.step : Service pg -> _) (Service.Adheres discipline) := by
  intro s label t h hstep
  cases Service.step_effect hstep with
  | taken shard msg rest waits queue =>
      exact Service.Adheres.goOn (s := s.withWaiting shard rest) h (hhandle msg)
  | acted shard env msg log o next works =>
      have hnext := (h shard _ works).right (s.stores.perform shard msg env o).1
      exact Service.Adheres.goOn
        (s := { s with stores := (s.stores.perform shard msg env o).2 }) h hnext
  | _ => exact h

/-- The same for disciplines whose notes are the logs. -/
def Service.Keeps (discipline : ShardMsg -> Discipline (@Answer double) (Log double))
    (s : Service pg) : Prop :=
  forall k w, s.consumers k = some w ->
    (discipline w.msg).Follows w.log w.rest (fun _ _ => True)

theorem keeps_preserved {discipline : ShardMsg -> Discipline (@Answer double) (Log double)}
    (hrecord : forall msg log o answer,
      (discipline msg).record log o answer = ⟨o, answer⟩ :: log)
    (hhandle : forall msg, (discipline msg).Follows [] (handle msg) (fun _ _ => True)) :
    Preserved (Service.step : Service pg -> _) (Service.Keeps discipline) := by
  intro s label t h hstep k w hw
  cases Service.step_effect hstep with
  | taken shard msg rest waits queue =>
      rcases Service.goOn_consumers hw with ⟨_, rfl⟩ | ⟨_, hold⟩
      · exact hhandle msg
      · exact h k w hold
  | acted shard env msg log o next works =>
      rcases Service.goOn_consumers hw with ⟨_, rfl⟩ | ⟨_, hold⟩
      · have hnext := (h shard _ works).right (s.stores.perform shard msg env o).1
        rw [hrecord] at hnext
        exact hnext
      · exact h k w hold
  | _ => exact h k w hw

end Adherence

/-!
# Texts
-/

/-- A part of the line, under the id of the session that sent the line. -/
def Utters (msg : ShardMsg) (data : List UInt8) : Prop :=
  exists t, t ≠ [] ∧ t <:+: msg.pkt.body ∧
    data = (senderPacket msg.sessionId t).wire

/-- What may leave the handler of a message. -/
def utterance (msg : ShardMsg) : Discipline (@Answer double) Unit where
  record := fun _ _ _ => ()
  allowed := fun _ o =>
    match o with
    | .isNamed _ => True
    | .sendTo _ data => msg.type = .client ∧
        ((exists t, data = (errorPacket t).wire) ∨ Utters msg data)
    | .sendToFriends _ data => msg.type = .client ∧ Utters msg data
    | .broadcast data => msg.type = .client ∧ (data = msg.pkt.wire ∨
        exists name, data = (nickPacket msg.sessionId name).wire)
    | .post _ m => msg.type = .client ∧ m = tradeRequest msg.sessionId
    | _ => msg.type = .client

/-- The rest of a handler utters only what it may. -/
abbrev Mannered (msg : ShardMsg) (x : Handler double Unit) : Prop :=
  (utterance msg).Follows () x (fun _ _ => True)

/-- The handler of every message utters only what it may. -/
theorem mannered_handle [One double] (msg : ShardMsg) :
    Mannered msg (handle msg : Handler double Unit) := by
  refine (addresses_handle msg).forget (fun _ => ()) (fun _ _ _ => rfl) ?_
  intro log o hallowed
  have hutters : forall sp : Speech, sp ≠ .toAll [] -> speechOf msg.pkt.body = some sp ->
      Utters msg (senderPacket msg.sessionId sp.words).wire :=
    fun sp hsp hsaid => ⟨sp.words, words_ne_nil hsaid hsp, words_part hsaid, rfl⟩
  cases o with
  | sendTo id data =>
      rcases hallowed with ⟨hclient, ⟨_, hnotice | ⟨sp, hsp, hsaid, rfl⟩⟩ | ⟨_, t, hsaid, rfl⟩⟩
      · exact ⟨hclient, Or.inl hnotice⟩
      · exact ⟨hclient, Or.inr (hutters sp hsp hsaid)⟩
      · exact ⟨hclient, Or.inr (hutters (.whisper id t) (by simp) hsaid)⟩
  | sendToFriends u data =>
      rcases hallowed with ⟨hclient, _, _, t, hsaid, rfl⟩
      exact ⟨hclient, hutters (.toFriends t) (by simp) hsaid⟩
  | broadcast data =>
      rcases hallowed with ⟨hclient, _, ⟨_, hchat⟩ | hnick⟩
      · exact ⟨hclient, Or.inl hchat⟩
      · exact ⟨hclient, Or.inr hnick⟩
  | _ => exact hallowed

end Consumers
end ContentServer
