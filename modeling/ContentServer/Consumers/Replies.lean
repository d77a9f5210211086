import ContentServer.Consumers.Handlers
import ContentServer.Foundation.Transcripts

/-!
# Replies

The texts that a handler sends back to its session, and what becomes of long
ones.  `ShowInventory` and `HandleFriendList` put their reply into one packet,
so it arrives whole only if it has at most 256 bytes; the ranking commands
divide theirs.
-/

namespace ContentServer
namespace Consumers

open Foundation Protocol Storage

variable {double : Type}

/-- The payload that an operation sends to the session with the given id. -/
def payloadOf (sessionId : Nat) : Op double -> Option (List UInt8)
  | .sendTo id data =>
      if id = sessionId then some (data.drop HEADER_SIZE) else none
  | _ => none

/-- The payloads of the packets that a handler sends to a session when its
operations have the given answers. -/
def payloads (answers : (o : Op double) -> Answer o) (sessionId : Nat)
    (handler : Handler double Unit) : List (List UInt8) :=
  (handler.transcript answers).filterMap (payloadOf sessionId)

section Payloads

variable (answers : (o : Op double) -> Answer o) (sessionId : Nat)

theorem payloads_bind (x : Handler double Unit) (f : Unit -> Handler double Unit) :
    payloads answers sessionId (x >>= f) =
      payloads answers sessionId x ++ payloads answers sessionId (f ()) := by
  unfold payloads
  rw [Program.transcript_bind, List.filterMap_append]

theorem payloads_call (o : Op double) (f : Answer o -> Handler double Unit) :
    payloads answers sessionId (call o >>= f) =
      (payloadOf sessionId o).toList ++ payloads answers sessionId (f (answers o)) := by
  show (o :: (f (answers o)).transcript answers).filterMap (payloadOf sessionId) = _
  rw [List.filterMap_cons]
  cases payloadOf sessionId o <;> rfl

/-- A packet carries the first 256 bytes of its text. -/
theorem payloads_sendError (msg : List UInt8) :
    payloads answers sessionId (sendError sessionId msg) = [msg.take MESSAGE_SIZE] := by
  have hwire : (errorPacket msg).wire.drop HEADER_SIZE = msg.take MESSAGE_SIZE := by
    unfold errorPacket
    rw [wire_makePacket]
    exact List.drop_left' (length_toBytes_header _)
  have hpayload : payloadOf sessionId
      (.sendTo sessionId (errorPacket msg).wire : Op double) =
        some (msg.take MESSAGE_SIZE) := by
    unfold payloadOf
    simp only [if_true, hwire]
  unfold sendError sendPacket
  rw [payloads_call, hpayload]
  rfl

/-- A text that is sent in one packet arrives whole exactly if it fits. -/
theorem flatten_payloads_sendError (msg : List UInt8) :
    (payloads answers sessionId (sendError sessionId msg)).flatten = msg <->
      msg.length ≤ MESSAGE_SIZE := by
  rw [payloads_sendError, List.flatten_singleton, List.take_eq_self_iff]

end Payloads

/-!
# The inventory and the friend list
-/

/-- The text that `ShowInventory` makes. -/
def inventoryText (gold : Nat) (items : List Item) : List UInt8 :=
  text "gold: " ++ decimal gold ++ text "\ntotal power: " ++
    decimalInt (items.map (fun item => item.power)).sum ++
    text "\n-- items --\n" ++ items.flatMap itemLine

/-- The text that `HandleFriendList` makes. -/
def friendListText (list : FriendList) : List UInt8 :=
  text "Blocked\n" ++ nameLines list.blocked ++
    text "----------------\n" ++ text "Request\n" ++ nameLines list.pending ++
    text "----------------\n" ++ text "Friends\n" ++ nameLines list.friends

/-- What the stores answer to the user of a session. -/
structure Shown (answers : (o : Op double) -> Answer o) (sessionId gold : Nat)
    (items : List Item) (list : FriendList) : Prop where
  gold : answers (.getGold (answers (.getUserId sessionId))) = some gold
  items : answers (.getItems (answers (.getUserId sessionId))) = some items
  list : answers (.getFriendList (answers (.getUserId sessionId))) = some list

section Shown

variable {answers : (o : Op double) -> Answer o} {sessionId gold : Nat}
  {items : List Item} {list : FriendList}

theorem Shown.payloads_showInventory (h : Shown answers sessionId gold items list) :
    payloads answers sessionId (showInventory sessionId) =
      payloads answers sessionId (sendError sessionId (inventoryText gold items)) := by
  unfold showInventory
  rw [payloads_call, payloads_call, h.gold]
  simp only
  rw [payloads_call, h.items]
  rfl

theorem Shown.payloads_handleFriendList (h : Shown answers sessionId gold items list)
    {iss : List UInt8} (hiss : (readWord iss).1 = []) :
    payloads answers sessionId (handleFriendList sessionId iss) =
      payloads answers sessionId (sendError sessionId (friendListText list)) := by
  unfold handleFriendList
  simp only [hiss, ne_eq, not_true_eq_false, if_false]
  rw [payloads_call, payloads_call, h.list]
  rfl

end Shown

/-- Answers of stores with one user, nothing of which is missing. -/
def userAnswers (gold : Nat) (items : List Item) (list : FriendList) :
    (o : Op Nat) -> Answer o
  | .isNamed _ | .setName _ _ | .sendTo _ _ => true
  | .getUserId _ | .findByName _ => 1
  | .setUserId _ _ | .broadcast _ | .sendToFriends _ _ | .sendRosterTo _
  | .loadFriendCache _ _ | .cacheAddFriend _ _ | .cacheRemoveFriend _ _
  | .post _ _ | .rankSetName _ _ | .rankUpdate _ _ => ()
  | .loginOrRegister _ => some 1
  | .getGold _ | .addGold _ _ => some gold
  | .dropItem _ => none
  | .getItems _ => some items
  | .getItem _ _ => some none
  | .enhanceItem _ _ _ _ _ => none
  | .addFriend _ _ | .rejectFriend _ _ => some false
  | .acceptFriend _ _ | .blockFriend _ _ => some 0
  | .getFriendList _ => some list
  | .getFriendIds _ => some []
  | .rankTop _ _ => []
  | .rankOf _ => none
  | .uniformInt low _ => low
  | .uniformReal _ _ => 1

theorem shown_userAnswers (sessionId gold : Nat) (items : List Item)
    (list : FriendList) :
    Shown (userAnswers gold items list) sessionId gold items list :=
  ⟨rfl, rfl, rfl⟩

/-- The characters of an item line besides its three numbers. -/
theorem length_itemLine (item : Item) :
    (itemLine item).length = 15 + (decimal item.itemId).length +
      (decimalInt item.enhanceLevel).length + (decimalInt item.power).length := by
  have hwords : (text "id=").length = 3 ∧ (text "  +").length = 3 ∧
      (text "  power=").length = 8 ∧ (text "\n").length = 1 := by decide
  unfold itemLine
  simp only [List.length_append, hwords]
  omega

theorem length_inventoryText (gold : Nat) (items : List Item) :
    (inventoryText gold items).length =
      33 + (decimal gold).length +
        (decimalInt (items.map (fun item => item.power)).sum).length +
        (items.map fun item => 15 + (decimal item.itemId).length +
          (decimalInt item.enhanceLevel).length +
          (decimalInt item.power).length).sum := by
  have hwords : (text "gold: ").length = 6 ∧ (text "\ntotal power: ").length = 14 ∧
      (text "\n-- items --\n").length = 13 := by decide
  unfold inventoryText
  simp only [List.length_append, List.length_flatMap, length_itemLine, hwords]
  omega

theorem length_nameLines (names : List (List UInt8)) :
    (nameLines names).length = (names.map fun name => name.length + 1).sum := by
  have hline : (text "\n").length = 1 := by decide
  unfold nameLines
  simp only [List.length_flatMap, List.length_append, hline]

theorem length_friendListText (list : FriendList) :
    (friendListText list).length =
      58 + ((list.blocked ++ list.pending ++ list.friends).map
        fun name => name.length + 1).sum := by
  have hwords : (text "Blocked\n").length = 8 ∧ (text "Request\n").length = 8 ∧
      (text "Friends\n").length = 8 ∧
      (text "----------------\n").length = 17 := by decide
  unfold friendListText
  simp only [List.length_append, length_nameLines, List.map_append,
    List.sum_append, hwords]
  omega

/--
The replies arrive complete exactly if their numbers and names are short and
few enough: what goes beyond 256 bytes is not sent.
-/
theorem replies_complete_iff {answers : (o : Op double) -> Answer o}
    {sessionId gold : Nat} {items : List Item} {list : FriendList}
    (h : Shown answers sessionId gold items list) {iss : List UInt8}
    (hiss : (readWord iss).1 = []) :
    ((payloads answers sessionId (showInventory sessionId)).flatten =
        inventoryText gold items <->
      33 + (decimal gold).length +
        (decimalInt (items.map (fun item => item.power)).sum).length +
        (items.map fun item => 15 + (decimal item.itemId).length +
          (decimalInt item.enhanceLevel).length +
          (decimalInt item.power).length).sum ≤ 256) ∧
    ((payloads answers sessionId (handleFriendList sessionId iss)).flatten =
        friendListText list <->
      58 + ((list.blocked ++ list.pending ++ list.friends).map
        fun name => name.length + 1).sum ≤ 256) := by
  rw [h.payloads_showInventory, h.payloads_handleFriendList hiss,
    flatten_payloads_sendError, flatten_payloads_sendError, length_inventoryText,
    length_friendListText]
  exact ⟨Iff.rfl, Iff.rfl⟩

/-- One sword and one friend fit. -/
theorem replies_complete_small :
    (payloads (userAnswers 30 [⟨1, 0, 10⟩] ⟨[], [], [text "mina"]⟩) 7
        (showInventory 7)).flatten = inventoryText 30 [⟨1, 0, 10⟩] ∧
      (payloads (userAnswers 30 [⟨1, 0, 10⟩] ⟨[], [], [text "mina"]⟩) 7
        (handleFriendList 7 [])).flatten = friendListText ⟨[], [], [text "mina"]⟩ := by
  have hnone : (readWord []).1 = [] := rfl
  have hiff := replies_complete_iff
    (shown_userAnswers 7 30 [⟨1, 0, 10⟩] ⟨[], [], [text "mina"]⟩) hnone
  exact ⟨hiff.left.mpr (by decide +kernel), hiff.right.mpr (by decide +kernel)⟩

/-- Thirteen swords and twenty-eight friends. -/
def manyItems : List Item :=
  (List.range 13).map fun i => ⟨100 + i, 0, 10⟩

def manyFriends : FriendList :=
  ⟨[], [], (List.range 28).map fun i => text "friend" ++ decimal (10 + i)⟩

/-- Their replies lose everything behind the first 256 bytes. -/
theorem replies_incomplete_many :
    (payloads (userAnswers 30 manyItems manyFriends) 7
        (showInventory 7)).flatten ≠ inventoryText 30 manyItems ∧
      (payloads (userAnswers 30 manyItems manyFriends) 7
        (handleFriendList 7 [])).flatten ≠ friendListText manyFriends := by
  have hshown := shown_userAnswers 7 30 manyItems manyFriends
  constructor
  · rw [hshown.payloads_showInventory, Ne, flatten_payloads_sendError,
      length_inventoryText]
    decide +kernel
  · rw [hshown.payloads_handleFriendList rfl, Ne, flatten_payloads_sendError,
      length_friendListText]
    decide +kernel

end Consumers
end ContentServer
