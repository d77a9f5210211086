import ContentServer.Consumers.Packets
import ContentServer.Registry.SessionManager

/-!
# Deliveries and friend caches

The operations of the session manager that send to several sessions, and those
that keep the friend caches.  The results of the sends that they start are
parameters, one for each send.
-/

namespace ContentServer
namespace Registry
namespace SessionManager

open Foundation Protocol Sessions

/-- Send one text after another, each to its session. -/
def sendAll (m : SessionManager) : List (Slot × List UInt8) ->
    (Nat -> PostResult) -> Delivery
  | [], _ => .nothing m
  | (slot, data) :: rest, results =>
      let first := m.send slot data (results 0)
      let others := first.manager.sendAll rest (fun n => results (n + 1))
      { manager := others.manager
        calls := first.calls ++ others.calls
        sendings := first.sendings ++ others.sendings }

def namedSlots (m : SessionManager) : List (Nat × Slot) :=
  (m.byId.entries.map (fun e => (e.1, e.2))).filter
    (fun e => (m.session e.2).isNamed)

def broadcast (m : SessionManager) (data : List UInt8)
    (results : Nat -> PostResult) : Delivery :=
  m.sendAll (m.namedSlots.map (fun e => (e.2, data))) results

/-- The session that is logged in as a user. -/
def slotOfUser (m : SessionManager) (userId : Nat) : Option Slot :=
  match m.byUserId.lookup userId with
  | none => none
  | some id => m.byId.lookup id

def sendToFriends (m : SessionManager) (userId : Nat) (data : List UInt8)
    (results : Nat -> PostResult) : Delivery :=
  match m.slotOfUser userId with
  | none => .nothing m
  | some slot =>
      let online := ((m.session slot).friendIds.sort (· ≤ ·)).filterMap m.slotOfUser
      m.sendAll (online.map (fun other => (other, data))) results

def sendRosterTo (m : SessionManager) (id : Nat)
    (results : Nat -> PostResult) : Delivery :=
  match m.byId.lookup id with
  | none => .nothing m
  | some target =>
      let others := m.namedSlots.filter (fun e => e.1 ≠ id)
      m.sendAll (others.map (fun e =>
        (target, (Consumers.nickPacket e.1 (m.session e.2).name).wire))) results

def loadFriendCache (m : SessionManager) (userId : Nat) (ids : List Nat) :
    SessionManager :=
  match m.slotOfUser userId with
  | none => m
  | some slot =>
      m.put slot (ids.foldl (fun s id => s.addFriend id) (m.session slot))

def cacheAddFriend (m : SessionManager) (userId friendId : Nat) :
    SessionManager :=
  match m.slotOfUser userId with
  | none => m
  | some slot => m.put slot ((m.session slot).addFriend friendId)

def cacheRemoveFriend (m : SessionManager) (userId friendId : Nat) :
    SessionManager :=
  match m.slotOfUser userId with
  | none => m
  | some slot => m.put slot ((m.session slot).removeFriend friendId)

end SessionManager
end Registry
end ContentServer
