import ContentServer.Consumers.Operations
import ContentServer.Foundation.TextInput

/-!
# The handlers

`Consumer::Handle` and the member functions that it calls, as programs over the
operations.  Each takes the part of the input that is still unread.
-/

namespace ContentServer
namespace Consumers

open Foundation Protocol Storage

abbrev Handler (double α : Type) : Type :=
  Program (@Answer double) α

variable {double : Type}

/-- Call one operation. -/
abbrev call (o : Op double) : Handler double (Answer o) :=
  Program.ask o

/-- The arithmetic of `int` wraps around on the compilers in use. -/
def wrapInt (v : Int) : Int :=
  v.bmod (2 ^ 32)

/-- The conversion of an `int` to `uint64_t`. -/
def toUint64 (v : Int) : Nat :=
  (v % 2 ^ 64).toNat

def sendPacket (sessionId : Nat) (pkt : Packet) : Handler double Unit := do
  let _ ← call (.sendTo sessionId pkt.wire)

def sendError (sessionId : Nat) (msg : List UInt8) : Handler double Unit :=
  sendPacket sessionId (errorPacket msg)

/-!
# Names and messages
-/

def handleNick (sessionId : Nat) (iss : List UInt8) : Handler double Unit := do
  let name := (readWord iss).1
  if name.length < 3 || name.length ≥ 10 then
    return ← sendError sessionId (text "invalid name")
  if ← call (.isNamed sessionId) then
    return ← sendError sessionId (text "already name")
  match ← call (.loginOrRegister name) with
  | none => sendError sessionId (text "server error")
  | some userId =>
      unless ← call (.setName sessionId name) do
        return ← sendError sessionId (text "already online")
      call (.setUserId sessionId userId)
      call (.rankSetName userId name)
      match ← call (.getFriendIds userId) with
      | none => return -- The exception leaves the handler.
      | some friendIds =>
          call (.loadFriendCache userId friendIds)
          call (.sendRosterTo sessionId)
          call (.broadcast (nickPacket sessionId name).wire)

def handleWhisper (senderId : Nat) (iss : List UInt8) : Handler double Unit :=
  match readUint 64 iss with
  | none => return
  | some (targetId, rest) => do
      let msg := readLine (skipSpace rest)
      if msg = [] then return
      let out := senderPacket senderId msg
      if ← call (.sendTo targetId out.wire) then
        sendPacket senderId out

/-- The reward of a chat message: gold, and sometimes an item. -/
def rewardChat (sessionId : Nat) : Handler double Unit := do
  let userId ← call (.getUserId sessionId)
  let gold ← call (.uniformInt 1 10)
  match ← call (.addGold userId (toUint64 gold)) with
  | none => return
  | some _ =>
      if (← call (.uniformInt 1 50)) = 1 then
        match ← call (.dropItem userId) with
        | none => return
        | some item =>
            call (.rankUpdate userId item.totalPower)
            sendError sessionId (text "item dropped! id=" ++ decimal item.itemId ++
              text " total power=" ++ decimal item.totalPower)

/-!
# Friends
-/

def handleFriendAdd (senderId : Nat) (iss : List UInt8) : Handler double Unit := do
  let friendName := (readWord iss).1
  if friendName = [] then
    return ← sendError senderId (text "usage: /f add <name>")
  let myUserId ← call (.getUserId senderId)
  match ← call (.addFriend myUserId friendName) with
  | none => sendError senderId (text "server error")
  | some ok =>
      sendError senderId (if ok then text "friend request sent: " ++ friendName
        else text "add failed")

def handleFriendAccept (senderId : Nat) (iss : List UInt8) :
    Handler double Unit := do
  let friendName := (readWord iss).1
  if friendName = [] then
    return ← sendError senderId (text "usage: /f accept <name>")
  let myUserId ← call (.getUserId senderId)
  match ← call (.acceptFriend myUserId friendName) with
  | none => sendError senderId (text "server error")
  | some friendId =>
      if friendId = 0 then
        return ← sendError senderId (text "Accept failed")
      call (.cacheAddFriend myUserId friendId)
      call (.cacheAddFriend friendId myUserId)
      sendError senderId (text "friend accepted: " ++ friendName)

def handleFriendReject (senderId : Nat) (iss : List UInt8) :
    Handler double Unit := do
  let friendName := (readWord iss).1
  if friendName = [] then
    return ← sendError senderId (text "usage: /f reject <name>")
  let myUserId ← call (.getUserId senderId)
  match ← call (.rejectFriend myUserId friendName) with
  | none => sendError senderId (text "server error")
  | some ok =>
      sendError senderId (if ok then text "friend request sent: " ++ friendName
        else text "Reject failed")

def handleFriendBlock (senderId : Nat) (iss : List UInt8) :
    Handler double Unit := do
  let friendName := (readWord iss).1
  if friendName = [] then
    return ← sendError senderId (text "usage: /f block <name>")
  let myUserId ← call (.getUserId senderId)
  match ← call (.blockFriend myUserId friendName) with
  | none => sendError senderId (text "server error")
  | some friendId =>
      if friendId = 0 then
        return ← sendError senderId (text "Block failed")
      call (.cacheRemoveFriend myUserId friendId)
      call (.cacheRemoveFriend friendId myUserId)
      sendError senderId (text "friend blocked: " ++ friendName)

/-- Names on lines of their own. -/
def nameLines (names : List (List UInt8)) : List UInt8 :=
  names.flatMap (fun name => name ++ text "\n")

def handleFriendList (senderId : Nat) (iss : List UInt8) :
    Handler double Unit := do
  if (readWord iss).1 ≠ [] then
    return ← sendError senderId (text "usage: /f list")
  let myUserId ← call (.getUserId senderId)
  match ← call (.getFriendList myUserId) with
  | none => sendError senderId (text "server error")
  | some list =>
      sendError senderId (text "Blocked\n" ++ nameLines list.blocked ++
        text "----------------\n" ++ text "Request\n" ++ nameLines list.pending ++
        text "----------------\n" ++ text "Friends\n" ++ nameLines list.friends)

def handleFriendBroadcast (senderId : Nat) (msg : List UInt8) :
    Handler double Unit := do
  if msg = [] then
    return ← sendError senderId
      (text "usage: /f <text> | add | accept | reject | block | list")
  let myUserId ← call (.getUserId senderId)
  let out := senderPacket senderId msg
  call (.sendToFriends myUserId out.wire)
  sendPacket senderId out

def handleFriend (senderId : Nat) (iss : List UInt8) : Handler double Unit :=
  let (command, rest) := readWord iss
  if command = text "add" then handleFriendAdd senderId rest
  else if command = text "accept" then handleFriendAccept senderId rest
  else if command = text "reject" then handleFriendReject senderId rest
  else if command = text "block" then handleFriendBlock senderId rest
  else if command = text "list" then handleFriendList senderId rest
  else handleFriendBroadcast senderId (command ++ readLine rest)

/-!
# The inventory
-/

def itemLine (item : Item) : List UInt8 :=
  text "id=" ++ decimal item.itemId ++ text "  +" ++ decimalInt item.enhanceLevel ++
    text "  power=" ++ decimalInt item.power ++ text "\n"

def showInventory (senderId : Nat) : Handler double Unit := do
  let userId ← call (.getUserId senderId)
  match ← call (.getGold userId) with
  | none => sendError senderId (text "server error")
  | some gold =>
      match ← call (.getItems userId) with
      | none => sendError senderId (text "server error")
      | some items =>
          let totalPower := (items.map (fun item => item.power)).sum
          sendError senderId (text "gold: " ++ decimal gold ++
            text "\ntotal power: " ++ decimalInt totalPower ++
            text "\n-- items --\n" ++ items.flatMap itemLine)

/-- `100 * (enhanceLevel + 1)` in the arithmetic of `int`. -/
def enhanceCost (enhanceLevel : Int) : Int :=
  wrapInt (100 * wrapInt (enhanceLevel + 1))

/-- `max(20, 100 - enhanceLevel * 5)` in the arithmetic of `int`. -/
def enhanceRate (enhanceLevel : Int) : Int :=
  max 20 (wrapInt (100 - wrapInt (enhanceLevel * 5)))

/-- The `switch` on the status in `HandleEnhance`. -/
def replyEnhance (senderId userId : Nat) (cost : Int) (r : EnhanceResult) :
    Handler double Unit :=
  match r.status with
  | .noGold =>
      sendError senderId
        (text "not enough gold (need " ++ decimalInt cost ++ text ")")
  | .notOwned => sendError senderId (text "no such item")
  | .success => do
      sendError senderId (text "enhance success!  +" ++
        decimalInt r.enhanceLevel ++ text "  power=" ++ decimalInt r.power ++
        text "  gold=" ++ decimal r.gold ++ text "  total=" ++
        decimal r.totalPower)
      call (.rankUpdate userId r.totalPower)
  | .failed =>
      sendError senderId (text "enhance failed...  +" ++
        decimalInt r.enhanceLevel ++ text "  power=" ++ decimalInt r.power ++
        text "  gold=" ++ decimal r.gold)

def handleEnhance [One double] (senderId : Nat) (iss : List UInt8) :
    Handler double Unit :=
  match readUint 64 iss with
  | none => sendError senderId (text "usage: /i enh <itemId>")
  | some (itemId, _) => do
      let userId ← call (.getUserId senderId)
      match ← call (.getItem userId itemId) with
      | none => sendError senderId (text "server error")
      | some none => sendError senderId (text "no such item")
      | some (some item) =>
          let cost := enhanceCost item.enhanceLevel
          let rate := enhanceRate item.enhanceLevel
          let success := decide ((← call (.uniformInt 1 100)) ≤ rate)
          let mult ← if success then call (.uniformReal 1.20 1.25) else pure 1
          match ← call (.enhanceItem userId itemId (toUint64 cost) success mult) with
          | none => sendError senderId (text "server error")
          | some r => replyEnhance senderId userId cost r

def handleInventory [One double] (senderId : Nat) (iss : List UInt8) :
    Handler double Unit :=
  let (sub, rest) := readWord iss
  if sub = [] then showInventory senderId
  else if sub = text "enh" then handleEnhance senderId rest
  else sendError senderId (text "usage: /i | /i enh <itemId>")

/-!
# Trades and rankings
-/

/-- The packet field of the message keeps its zeros. -/
def handleTrade (senderId : Nat) (iss : List UInt8) : Handler double Unit := do
  let id ← call (.findByName (readWord iss).1)
  call (.post id
    { type := .tradeRequest, fromSid := senderId, pkt := Packet.ofBytes [] })

/-- Send the lines in as few messages as their order allows. -/
def sendPages (senderId : Nat) :
    List (List UInt8) -> List UInt8 -> Handler double Unit
  | [], body => if body = [] then return else sendError senderId body
  | line :: rest, body =>
      if body.length + line.length > MESSAGE_SIZE then do
        sendError senderId body
        sendPages senderId rest line
      else sendPages senderId rest (body ++ line)

/-- The text after the rank of an entry. -/
def rankText (e : RankEntry) : List UInt8 :=
  text ". " ++ (if e.name = [] then text "unknown" else e.name) ++
    text "  power=" ++ decimal e.totalPower ++ text "\n"

def showRanker (senderId : Nat) : Handler double Unit := do
  let topRank ← call (.rankTop 0 19)
  if topRank.isEmpty then
    return ← sendError senderId (text "rank is empty")
  sendPages senderId
    (topRank.mapIdx (fun i r => decimal (i + 1) ++ rankText r))
    (text "-- top 20 --\n")

def showMyRank (senderId : Nat) : Handler double Unit := do
  let userId ← call (.getUserId senderId)
  match ← call (.rankOf userId) with
  | none => sendError senderId (text "not ranked yet")
  | some myRank =>
      let start := max 0 (myRank - 5)
      let around ← call (.rankTop start (myRank + 5))
      sendPages senderId
        (around.mapIdx (fun i e =>
          (if start + i = myRank then text "> " else text "  ") ++
            decimalInt (start + i + 1) ++ rankText e))
        (text "-- my rank: " ++ decimalInt (myRank + 1) ++ text " --\n")

def handleRanking (senderId : Nat) (iss : List UInt8) : Handler double Unit :=
  let sub := (readWord iss).1
  if sub = [] then showRanker senderId
  else if sub = text "me" then showMyRank senderId
  else sendError senderId (text "usage: /r | /r me")

/-!
# Dispatch
-/

/-- The trade messages have no effect yet. -/
def handleInternal (msg : ShardMsg) : Handler double Unit := do
  if msg.type = .tradeDisconnect ∨ msg.sessionId = msg.fromSid then return
  let _ ← call (.isNamed msg.sessionId)

def handle [One double] (msg : ShardMsg) : Handler double Unit := do
  if msg.type ≠ .client then
    return ← handleInternal msg
  let sessionId := msg.sessionId
  let body := msg.pkt.body
  if body.head? ≠ some 47 then
    unless ← call (.isNamed sessionId) do
      return ← sendError sessionId (text "name plz.")
    call (.broadcast msg.pkt.wire)
    return ← rewardChat sessionId
  let (cmd, iss) := readWord body
  if cmd = text "/n" then
    return ← handleNick sessionId iss
  unless ← call (.isNamed sessionId) do
    return ← sendError sessionId (text "name plz.")
  if cmd = text "/w" then handleWhisper sessionId iss
  else if cmd = text "/f" then handleFriend sessionId iss
  else if cmd = text "/i" then handleInventory sessionId iss
  else if cmd = text "/r" then handleRanking sessionId iss
  else if cmd = text "/t" then handleTrade sessionId iss

end Consumers
end ContentServer
