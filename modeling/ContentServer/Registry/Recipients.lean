import ContentServer.Registry.Frames

/-!
# Who is sent what

Every operation that sends works through a list of sessions and texts, which can be
read off the registry beforehand.  The calls of `Session::Send` that the operation
makes are these, one for each, in this order.
-/

namespace ContentServer
namespace Registry

open Foundation Protocol Sessions

namespace SessionManager

def broadcastTargets (m : SessionManager) (data : List UInt8) :
    List (Slot × List UInt8) :=
  m.namedSlots.map (fun e => (e.2, data))

def friendTargets (m : SessionManager) (userId : Nat) (data : List UInt8) :
    List (Slot × List UInt8) :=
  match m.slotOfUser userId with
  | none => []
  | some slot =>
      (((m.session slot).friendIds.sort (· ≤ ·)).filterMap m.slotOfUser).map
        (fun other => (other, data))

def rosterTargets (m : SessionManager) (id : Nat) : List (Slot × List UInt8) :=
  match m.byId.lookup id with
  | none => []
  | some target =>
      (m.namedSlots.filter (fun e => e.1 ≠ id)).map (fun e =>
        (target, (Consumers.nickPacket e.1 (m.session e.2).name).wire))

def sendToTargets (m : SessionManager) (id : Nat) (data : List UInt8) :
    List (Slot × List UInt8) :=
  match m.byId.lookup id with
  | none => []
  | some slot => [(slot, data)]

theorem broadcast_eq (m : SessionManager) (data : List UInt8)
    (results : Nat -> PostResult) :
    m.broadcast data results = m.sendAll (m.broadcastTargets data) results := rfl

theorem sendToFriends_eq (m : SessionManager) (userId : Nat) (data : List UInt8)
    (results : Nat -> PostResult) :
    m.sendToFriends userId data results =
      m.sendAll (m.friendTargets userId data) results := by
  unfold sendToFriends friendTargets
  cases m.slotOfUser userId <;> rfl

theorem sendRosterTo_eq (m : SessionManager) (id : Nat)
    (results : Nat -> PostResult) :
    m.sendRosterTo id results = m.sendAll (m.rosterTargets id) results := by
  unfold sendRosterTo rosterTargets
  cases m.byId.lookup id <;> rfl

theorem sendTo_eq (m : SessionManager) (id : Nat) (data : List UInt8)
    (results : Nat -> PostResult) :
    (m.sendTo id data (results 0)).2 = m.sendAll (m.sendToTargets id data) results := by
  unfold sendTo sendToTargets
  cases m.byId.lookup id with
  | none => rfl
  | some slot =>
      simp only [sendAll, Delivery.nothing, List.append_nil]

/-- The recipients and texts are those that were listed. -/
theorem map_sendings (m : SessionManager) (targets : List (Slot × List UInt8))
    (results : Nat -> PostResult) :
    (m.sendAll targets results).sendings.map (fun d => (d.sessionId, d.data)) =
      targets.map (fun t => ((m.session t.1).id, t.2)) := by
  induction targets generalizing m results with
  | nil => rfl
  | cons target rest ih =>
      rcases target with ⟨slot, data⟩
      have hsame := SameSessions.put
        (send_sendCall (m.session slot) data (results 0)).owner
      simp only [sendAll, send, List.map_append, List.map_cons, List.map_nil, ih]
      refine congrArg _ (List.map_congr_left ?_)
      intro t _
      rw [(hsame.sessions t.1).id]

theorem mem_sendings {m : SessionManager} {targets : List (Slot × List UInt8)}
    (results : Nat -> PostResult) {slot : Slot} {data : List UInt8}
    (h : (slot, data) ∈ targets) :
    exists d, d ∈ (m.sendAll targets results).sendings ∧
      d.sessionId = (m.session slot).id ∧ d.data = data := by
  have hmem : ((m.session slot).id, data) ∈
      (m.sendAll targets results).sendings.map (fun d => (d.sessionId, d.data)) := by
    rw [map_sendings]
    exact List.mem_map.mpr ⟨(slot, data), h, rfl⟩
  rcases List.mem_map.mp hmem with ⟨d, hd, hsame⟩
  exact ⟨d, hd, congrArg Prod.fst hsame, congrArg Prod.snd hsame⟩

theorem target_of_mem_sendings {m : SessionManager}
    {targets : List (Slot × List UInt8)} {results : Nat -> PostResult} {d : Sending}
    (h : d ∈ (m.sendAll targets results).sendings) :
    exists slot, (slot, d.data) ∈ targets ∧ d.sessionId = (m.session slot).id := by
  have hmem : (d.sessionId, d.data) ∈
      targets.map (fun t => ((m.session t.1).id, t.2)) := by
    rw [← map_sendings m targets results]
    exact List.mem_map.mpr ⟨d, h, rfl⟩
  rcases List.mem_map.mp hmem with ⟨⟨slot, data⟩, ht, hsame⟩
  rcases Prod.mk.inj hsame with ⟨hid, hdata⟩
  exact ⟨slot, by rw [← hdata]; exact ht, hid.symm⟩

theorem mem_namedSlots {m : SessionManager} {id : Nat} {slot : Slot} :
    (id, slot) ∈ m.namedSlots <->
      m.byId.lookup id = some slot ∧ (m.session slot).isNamed = true := by
  unfold namedSlots
  rw [List.mem_filter, List.mem_map]
  constructor
  · intro h
    rcases h with ⟨⟨e, he, hsame⟩, hnamed⟩
    cases hsame
    exact ⟨AList.mem_lookup_iff.mpr he, hnamed⟩
  · intro h
    exact ⟨⟨⟨id, slot⟩, AList.mem_lookup_iff.mp h.left, rfl⟩, h.right⟩

end SessionManager
end Registry
end ContentServer
