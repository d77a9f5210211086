import ContentServer.Clients.FriendLists
import ContentServer.Foundation.Simulation

/-!
# The load bot

A bot of `bot/bot.go` is two loops, one that acts and one that receives, which
share what the last friend list said.  Either loop may take its next step at any
time; each step does one thing that the other loop, or another bot, can see.
-/

namespace ContentServer
namespace Clients

open Foundation Protocol

/-!
# Draws
-/

/-- The names of the choices of `friendAction`. -/
inductive Choice where
  | add
  | list
  | chat
  | accept
  | reject
deriving DecidableEq

/-- The first loop of `pickWeighted`; the sum is an `int` and may wrap around. -/
def totalWeight {α : Type} (items : List (α × Int64)) : Int64 :=
  items.foldl (fun total item => total + item.2) 0

/-- The second loop of `pickWeighted`; the last item stands behind it. -/
def pickFrom {α : Type} (last : Option α) : List (α × Int64) -> Int64 -> Option α
  | [], _ => last
  | (name, weight) :: rest, n =>
      if n - weight < 0 then some name else pickFrom last rest (n - weight)

/-- `n` is `rng.Intn(total)`. -/
def pickWeighted {α : Type} (items : List (α × Int64)) (n : Int64) : Option α :=
  if totalWeight items ≤ 0 then none
  else pickFrom (items.getLast?.map Prod.fst) items n

section Weights

variable {α : Type} [DecidableEq α]

/-- The weights of the items, added up without wrapping around. -/
def weightSum (items : List (α × Int64)) : Int :=
  (items.map fun item => item.2.toInt).sum

/-- The weights of the items with a name. -/
def weightOf (items : List (α × Int64)) (name : α) : Int :=
  weightSum (items.filter fun item => item.1 = name)

/-- The number of the first draws that lead to a name. -/
def drawsOf (last : Option α) (items : List (α × Int64)) (name : α) (total : Nat) : Nat :=
  (List.range total).countP fun n => pickFrom last items (Int64.ofNat n) = some name

omit [DecidableEq α] in
theorem weightSum_cons (item : α × Int64) (rest : List (α × Int64)) :
    weightSum (item :: rest) = item.2.toInt + weightSum rest := by
  unfold weightSum
  rw [List.map_cons, List.sum_cons]

omit [DecidableEq α] in
theorem weightSum_nonneg {items : List (α × Int64)}
    (h : forall item, item ∈ items -> 0 ≤ item.2) : 0 ≤ weightSum items := by
  apply List.sum_nonneg
  intro weight hweight
  rcases List.mem_map.mp hweight with ⟨item, hitem, rfl⟩
  exact Int64.le_iff_toInt_le.mp (h item hitem)

omit [DecidableEq α] in
/-- Without wrapping around, the loop computes the sum. -/
theorem foldl_weights {items : List (α × Int64)}
    (h : forall item, item ∈ items -> 0 ≤ item.2) :
    forall start : Int64, 0 ≤ start.toInt ->
      start.toInt + weightSum items < 2 ^ 63 ->
      (items.foldl (fun total item => total + item.2) start).toInt =
        start.toInt + weightSum items := by
  induction items with
  | nil =>
      intro start _ _
      exact (Int.add_zero _).symm
  | cons item rest ih =>
      intro start hstart hfits
      have hrest := fun other hother => h other (List.mem_cons_of_mem item hother)
      have hsum := weightSum_nonneg hrest
      have hitem : 0 ≤ item.2.toInt :=
        Int64.le_iff_toInt_le.mp (h item List.mem_cons_self)
      rw [weightSum_cons] at hfits ⊢
      have hnext : (start + item.2).toInt = start.toInt + item.2.toInt := by
        rw [Int64.toInt_add]
        exact Int.bmod_eq_of_le (by omega) (by omega)
      rw [List.foldl_cons, ih hrest _ (by omega) (by omega), hnext]
      omega

theorem drawsOf_cons (last : Option α) (head name : α) (weight total : Nat)
    (rest : List (α × Int64)) (hfits : weight + total < 2 ^ 63) :
    drawsOf last ((head, Int64.ofNat weight) :: rest) name (weight + total) =
      (if head = name then weight else 0) + drawsOf last rest name total := by
  have hweight := Int64.toInt_ofNat_of_lt (n := weight) (by omega)
  have hfirst : forall n : Nat, n < weight ->
      pickFrom last ((head, Int64.ofNat weight) :: rest) (Int64.ofNat n) =
        some head := by
    intro n hn
    have hdraw := Int64.toInt_ofNat_of_lt (n := n) (by omega)
    simp only [pickFrom]
    rw [if_pos]
    rw [Int64.lt_iff_toInt_lt, Int64.toInt_sub, hweight, hdraw,
      Int.bmod_eq_of_le (by omega) (by omega)]
    exact Int.sub_neg_of_lt (Int.ofNat_lt.mpr hn)
  have hlater : forall n : Nat, n < total ->
      pickFrom last ((head, Int64.ofNat weight) :: rest)
          (Int64.ofNat (weight + n)) =
        pickFrom last rest (Int64.ofNat n) := by
    intro n hn
    have hdraw := Int64.toInt_ofNat_of_lt (n := n) (by omega)
    have hsub : Int64.ofNat (weight + n) - Int64.ofNat weight = Int64.ofNat n := by
      rw [Int64.ofNat_add, Int64.add_comm, Int64.add_sub_cancel]
    simp only [pickFrom, hsub]
    rw [if_neg]
    rw [Int64.lt_iff_toInt_lt, hdraw]
    exact Int.not_lt.mpr (Int.natCast_nonneg n)
  unfold drawsOf
  rw [List.range_add, List.countP_append, List.countP_map]
  congr 1
  · by_cases hname : head = name
    · rw [if_pos hname]
      have hall : forall n, n ∈ List.range weight -> decide
          (pickFrom last ((head, Int64.ofNat weight) :: rest) (Int64.ofNat n) =
            some name) = true := by
        intro n hn
        exact decide_eq_true (by rw [hfirst n (List.mem_range.mp hn), hname])
      rw [List.countP_eq_length.mpr hall, List.length_range]
    · rw [if_neg hname]
      refine List.countP_eq_zero.mpr fun n hn => ?_
      simp [hfirst n (List.mem_range.mp hn), hname]
  · refine List.countP_congr fun n hn => ?_
    simp only [Function.comp_apply, hlater n (List.mem_range.mp hn)]

theorem drawsOf_eq (last : Option α) (name : α) {items : List (α × Int64)}
    (h : forall item, item ∈ items -> 0 ≤ item.2) (hfits : weightSum items < 2 ^ 63) :
    (drawsOf last items name (weightSum items).toNat : Int) = weightOf items name := by
  induction items with
  | nil => rfl
  | cons item rest ih =>
      rcases item with ⟨head, weight⟩
      have hrest := fun other hother => h other (List.mem_cons_of_mem _ hother)
      have hpos := weightSum_nonneg hrest
      have hweight : 0 ≤ weight := h (head, weight) List.mem_cons_self
      have hcast := Int64.cast_toNatClampNeg weight hweight
      rw [weightSum_cons] at hfits ⊢
      replace hfits : weight.toInt + weightSum rest < 2 ^ 63 := hfits
      have htotal : (weight.toInt + weightSum rest).toNat =
          weight.toNatClampNeg + (weightSum rest).toNat := by
        omega
      have hcons := drawsOf_cons last head name weight.toNatClampNeg
        (weightSum rest).toNat rest (by omega)
      rw [Int64.ofNat_toNatClampNeg weight hweight] at hcons
      show (drawsOf last ((head, weight) :: rest) name
        (weight.toInt + weightSum rest).toNat : Int) = _
      rw [htotal, hcons, Nat.cast_add, ih hrest (by omega)]
      unfold weightOf
      by_cases hname : head = name
      · rw [if_pos hname, List.filter_cons_of_pos (by simpa using hname),
          weightSum_cons, hcast]
      · rw [if_neg hname, List.filter_cons_of_neg (by simpa using hname)]
        exact Int.zero_add _

/--
The choice is fair: of all values that the generator may draw, as many lead to a
name as the weights of its items say.  The sum of the weights must not wrap
around.
-/
theorem draws_match_weights {items : List (α × Int64)} (name : α)
    (h : forall item, item ∈ items -> 0 ≤ item.2)
    (hfits : weightSum items < 2 ^ 63) :
    (((List.range (totalWeight items).toInt.toNat).countP fun n =>
      pickWeighted items (Int64.ofNat n) = some name : Nat) : Int) =
        weightOf items name := by
  have htotal : (totalWeight items).toInt = weightSum items := by
    have hfold := foldl_weights h 0 (Int.le_refl 0)
      (by rw [Int64.toInt_zero, Int.zero_add]; exact hfits)
    rw [Int64.toInt_zero, Int.zero_add] at hfold
    exact hfold
  have hdraws := drawsOf_eq (items.getLast?.map Prod.fst) name h hfits
  rw [htotal, ← hdraws]
  by_cases hzero : totalWeight items ≤ 0
  · have hnone : (weightSum items).toNat = 0 := by
      rw [Int64.le_iff_toInt_le, htotal, Int64.toInt_zero] at hzero
      omega
    rw [hnone]
    rfl
  · unfold drawsOf pickWeighted
    simp only [hzero, if_false]

end Weights

/-- Three of twelve draws make the bot accept a request. -/
theorem draws_match_weights_accept :
    (((List.range 12).countP fun n => pickWeighted
      [(Choice.add, 3), (.list, 3), (.chat, 2), (.accept, 3), (.reject, 1)]
        (Int64.ofNat n) = some .accept : Nat) : Int) = 3 :=
  (@draws_match_weights Choice _
    [(Choice.add, 3), (.list, 3), (.chat, 2), (.accept, 3), (.reject, 1)] .accept
      (by decide) (by decide)).trans (by decide)

def chatWords : List String :=
  ["hello", "hi", "gg", "wp", "nice", "lol", "omg", "wow", "hmm", "ok",
    "go", "run", "boss", "raid", "party", "quest", "drop", "gold", "item", "sword",
    "enhance", "fail", "success", "lucky", "unlucky", "trade", "buy", "sell", "cheap",
    "expensive",
    "where", "here", "there", "wait", "hurry", "sorry", "thanks", "welcome", "bye", "afk",
    "server", "lag", "ping", "shard", "queue", "packet", "socket", "iocp", "redis",
    "postgres",
    "level", "up", "down", "power", "rank", "top", "loser", "winner", "again", "one",
    "more", "time", "today", "night", "morning", "raidboss", "dungeon", "guild", "friend",
    "invite"]

def minChatWords : Nat := 1

def maxChatWords : Nat := 12

/-- The words that `randomChat` joins; the draws are the numbers of the words. -/
def drawnWords (draws : List Nat) : Option (List String) :=
  if minChatWords ≤ draws.length ∧ draws.length ≤ maxChatWords ∧
      forall k, k ∈ draws -> k < chatWords.length then
    some (draws.map fun k => chatWords.getD k "")
  else none

/-- The words with blanks between them. -/
def joined (words : List String) : List UInt8 :=
  List.intercalate [32] (words.map text)

/-!
# The state of a bot
-/

/-- What a bot sends. -/
inductive Saying where
  | login
  | chat (words : List String)
  | add (target : List UInt8)
  | list
  | friendChat (words : List String)
  | accept (name : List UInt8)
  | reject (name : List UInt8)
deriving DecidableEq

/-- The payload that is handed to `send`. -/
def Saying.payload (name : List UInt8) : Saying -> List UInt8
  | .login => text "/n " ++ name
  | .chat words => joined words
  | .add target => text "/f add " ++ target
  | .list => text "/f list"
  | .friendChat words => text "/f " ++ joined words
  | .accept name => text "/f accept " ++ name
  | .reject name => text "/f reject " ++ name

/-- Where `run` is. -/
inductive Stage where
  /-- Before the answer to `net.DialTimeout`. -/
  | dialing
  /-- Connected, before the login is counted. -/
  | connected
  /-- In `send`, with the saying counted under its kind. -/
  | sending (saying : Saying)
  /-- Waiting for the next tick. -/
  | resting
  /-- In `friendAction`, before `hasPending`. -/
  | acting
  /-- With the choices made up. -/
  | choosing (offered : Bool)
  /-- Before `takePending`; the answer will be to accept or to reject. -/
  | taking (accepts : Bool)
  /-- With the name that `takePending` returned. -/
  | taken (accepts : Bool) (name : List UInt8)
  /-- Before the deferred calls. -/
  | leaving
  /-- Not connected, or not any more. -/
  | gone
deriving DecidableEq

/-- Where `recvLoop` is. -/
inductive Receiver where
  | off
  | waiting
  /-- With a packet that has been counted in `recv`. -/
  | received (id : UInt16) (payload : List UInt8)
  /-- Before `applyFriendList`. -/
  | applying (payload : List UInt8)
deriving DecidableEq

structure Bot where
  name : List UInt8
  pool : List (List UInt8)
  pending : List (List UInt8)
  friends : List (List UInt8)
  listSeen : Bool
  stage : Stage
  receiver : Receiver

/-- `newBot` -/
def Bot.new (name : List UInt8) (pool : List (List UInt8)) : Bot where
  name := name
  pool := pool
  pending := []
  friends := []
  listSeen := false
  stage := .dialing
  receiver := .off

/-- The fields of `stats`. -/
inductive Counter where
  | alive
  | dialErr
  | sendErr
  | sent
  | sentLogin
  | sentChat
  | sentCmd
  | friendAdd
  | friendList
  | friendChat
  | friendAccept
  | friendReject
  | recv
  | recvChat
  | recvNick
  | recvSystem
deriving DecidableEq

/-- The counter that `act`, `friendAction` or `run` raises for what is sent. -/
def Saying.counter : Saying -> Counter
  | .login => .sentLogin
  | .chat _ => .sentChat
  | .add _ => .friendAdd
  | .list => .friendList
  | .friendChat _ => .friendChat
  | .accept _ => .friendAccept
  | .reject _ => .friendReject

/-- What others can see of a step. -/
inductive Sight where
  /-- A call of `Add` on a counter. -/
  | counted (counter : Counter) (delta : Int)
  /-- The packet of a saying was written. -/
  | wrote (saying : Saying)
  /-- A friend list was applied; these requests are pending. -/
  | listed (pending : List (List UInt8))
  /-- `takePending` returned a request. -/
  | took (name : List UInt8)
  /-- `friendAction` found nobody to address. -/
  | skipped
deriving DecidableEq

/-!
# Steps
-/

/-- The answers of the network and the generator of random numbers. -/
inductive BotEvent where
  | dial (ok : Bool)
  | login
  | write (ok : Bool)
  /-- A tick whose first draw is below `chatRate`. -/
  | chat (draws : List Nat)
  /-- Any other tick. -/
  | command
  | look
  | pick (n : Nat) (draws : List Nat)
  | take (i : Nat)
  | answer
  | leave
  | read (id : UInt16) (payload : List UInt8)
  | control
  | apply
  | hangUp

namespace Bot

/-- The loop of `randomOther` on the draws. -/
def otherFrom (b : Bot) : List Nat -> Option (List UInt8)
  | [] => none
  | k :: rest =>
      match b.pool[k]? with
      | none => none
      | some name => if name ≠ b.name then some name else b.otherFrom rest

/-- An empty name if there is no other bot. -/
def randomOther (b : Bot) (draws : List Nat) : Option (List UInt8) :=
  if b.pool.length < 2 then some [] else b.otherFrom draws

def hasPending (b : Bot) : Bool :=
  b.listSeen && b.pending.length > 0

/-- The choices of `friendAction`. -/
def choices (offered : Bool) : List (Choice × Int64) :=
  [(.add, 3), (.list, 3), (.chat, 2)] ++
    if offered then [(.accept, 3), (.reject, 1)] else []

/-- The rest of `friendAction`, up to the count of what is sent. -/
def friendAction (b : Bot) (choice : Choice) (draws : List Nat) :
    Option (Bot × List Sight) :=
  match choice with
  | .add => (b.randomOther draws).map fun target =>
      if target = [] then ({ b with stage := .resting }, [.skipped])
      else ({ b with stage := .sending (.add target) }, [.counted .friendAdd 1])
  | .list => some ({ b with stage := .sending .list }, [.counted .friendList 1])
  | .chat => (drawnWords draws).map fun words =>
      ({ b with stage := .sending (.friendChat words) }, [.counted .friendChat 1])
  | .accept => some ({ b with stage := .taking true }, [])
  | .reject => some ({ b with stage := .taking false }, [])

/-- `takePending`, where `rng.Intn` draws `i`. -/
def takePending (b : Bot) (i : Nat) : Option (Bot × List UInt8) :=
  if b.pending.length = 0 then some (b, [])
  else b.pending[i]?.map fun name => ({ b with pending := b.pending.eraseIdx i }, name)

/-- `onControl`, up to the count of the message. -/
def onControl (b : Bot) (payload : List UInt8) : Bot × List Sight :=
  if (text "NICK ").isPrefixOf payload then
    ({ b with receiver := .waiting }, [.counted .recvNick 1])
  else if (text "Blocked").isPrefixOf payload then
    ({ b with receiver := .applying payload }, [.counted .recvSystem 1])
  else ({ b with receiver := .waiting }, [.counted .recvSystem 1])

/-- `applyFriendList` -/
def applyFriendList (b : Bot) (payload : List UInt8) : Bot :=
  { b with
    pending := (parseFriendList payload).1
    friends := (parseFriendList payload).2
    listSeen := true }

/-- One step of either loop, and what others can see of it.  The reader takes no
payload of more than `maxPayloadSize` bytes. -/
def step (b : Bot) : BotEvent -> Option (Bot × List Sight)
  | .dial ok =>
      if b.stage = .dialing ∧ b.receiver = .off then
        if ok then some ({ b with stage := .connected, receiver := .waiting },
          [.counted .alive 1])
        else some ({ b with stage := .gone }, [.counted .dialErr 1])
      else none
  | .login =>
      if b.stage = .connected then
        some ({ b with stage := .sending .login }, [.counted .sentLogin 1])
      else none
  | .write ok =>
      match b.stage with
      | .sending saying =>
          if ok then some ({ b with stage := .resting },
            [.wrote saying, .counted .sent 1])
          else some ({ b with stage := .leaving }, [.counted .sendErr 1])
      | _ => none
  | .chat draws =>
      if b.stage = .resting then
        (drawnWords draws).map fun words =>
          ({ b with stage := .sending (.chat words) }, [.counted .sentChat 1])
      else none
  | .command =>
      if b.stage = .resting then
        some ({ b with stage := .acting }, [.counted .sentCmd 1])
      else none
  | .look =>
      if b.stage = .acting then some ({ b with stage := .choosing b.hasPending }, [])
      else none
  | .pick n draws =>
      match b.stage with
      | .choosing offered =>
          if n < (totalWeight (choices offered)).toInt then
            (pickWeighted (choices offered) (Int64.ofNat n)).bind fun choice =>
              b.friendAction choice draws
          else none
      | _ => none
  | .take i =>
      match b.stage with
      | .taking accepts =>
          (b.takePending i).map fun (rest, name) =>
            if name = [] then ({ rest with stage := .resting }, [.skipped])
            else ({ rest with stage := .taken accepts name }, [.took name])
      | _ => none
  | .answer =>
      match b.stage with
      | .taken accepts name =>
          if accepts then some ({ b with stage := .sending (.accept name) },
            [.counted .friendAccept 1])
          else some ({ b with stage := .sending (.reject name) },
            [.counted .friendReject 1])
      | _ => none
  | .leave =>
      if b.stage = .resting ∨ b.stage = .leaving then
        some ({ b with stage := .gone }, [.counted .alive (-1)])
      else none
  | .read id payload =>
      if b.receiver = .waiting ∧ payload.length ≤ maxPayloadSize then
        some ({ b with receiver := .received id payload }, [.counted .recv 1])
      else none
  | .control =>
      match b.receiver with
      | .received id payload =>
          if id ≠ 0 then some ({ b with receiver := .waiting }, [.counted .recvChat 1])
          else some (b.onControl payload)
      | _ => none
  | .apply =>
      match b.receiver with
      | .applying payload =>
          some ({ b.applyFriendList payload with receiver := .waiting },
            [.listed (parseFriendList payload).1])
      | _ => none
  | .hangUp =>
      if b.receiver = .waiting then some ({ b with receiver := .off }, []) else none

/-!
# What a step does
-/

/-- The place from which a saying is sent. -/
inductive Speaks : Stage -> Saying -> Prop where
  | login : Speaks .connected .login
  | chat (words : List String) : Speaks .resting (.chat words)
  | add (offered : Bool) (target : List UInt8) : Speaks (.choosing offered) (.add target)
  | list (offered : Bool) : Speaks (.choosing offered) .list
  | friendChat (offered : Bool) (words : List String) :
      Speaks (.choosing offered) (.friendChat words)
  | accept (name : List UInt8) : Speaks (.taken true name) (.accept name)
  | reject (name : List UInt8) : Speaks (.taken false name) (.reject name)

/-- What the generator may draw for a saying. -/
def Draws (b : Bot) : Saying -> Prop
  | .chat words => exists draws, drawnWords draws = some words
  | .friendChat words => exists draws, drawnWords draws = some words
  | .add target => target ≠ [] ∧ target ∈ b.pool ∧ target ≠ b.name
  | _ => True

/-- The class of a packet that has been read. -/
inductive Hears : UInt16 -> Counter -> Prop where
  | chat (id : UInt16) : id ≠ 0 -> Hears id .recvChat
  | nick : Hears 0 .recvNick
  | system : Hears 0 .recvSystem

/-- The next state of a bot and what can be seen of the step. -/
inductive Effect (b : Bot) : Bot -> List Sight -> Prop where
  | dialed (dialing : b.stage = .dialing) (off : b.receiver = .off) :
      Effect b { b with stage := .connected, receiver := .waiting } [.counted .alive 1]
  | refused (dialing : b.stage = .dialing) :
      Effect b { b with stage := .gone } [.counted .dialErr 1]
  | speaks (saying : Saying) (speaks : Speaks b.stage saying)
      (drawn : b.Draws saying) :
      Effect b { b with stage := .sending saying } [.counted saying.counter 1]
  | wrote (saying : Saying) (sending : b.stage = .sending saying) :
      Effect b { b with stage := .resting } [.wrote saying, .counted .sent 1]
  | failed (saying : Saying) (sending : b.stage = .sending saying) :
      Effect b { b with stage := .leaving } [.counted .sendErr 1]
  | commanded (resting : b.stage = .resting) :
      Effect b { b with stage := .acting } [.counted .sentCmd 1]
  | looked (acting : b.stage = .acting) :
      Effect b { b with stage := .choosing b.hasPending } []
  | chose (offered accepts : Bool) (choosing : b.stage = .choosing offered) :
      Effect b { b with stage := .taking accepts } []
  | alone (offered : Bool) (choosing : b.stage = .choosing offered) :
      Effect b { b with stage := .resting } [.skipped]
  | emptied (accepts : Bool) (taking : b.stage = .taking accepts)
      (none : b.pending = []) :
      Effect b { b with stage := .resting } [.skipped]
  | nameless (accepts : Bool) (i : Nat) (taking : b.stage = .taking accepts)
      (drawn : b.pending[i]? = some []) :
      Effect b { b with pending := b.pending.eraseIdx i, stage := .resting } [.skipped]
  | took (accepts : Bool) (i : Nat) (name : List UInt8)
      (taking : b.stage = .taking accepts) (drawn : b.pending[i]? = some name) :
      Effect b { b with pending := b.pending.eraseIdx i, stage := .taken accepts name }
        [.took name]
  | left (ends : b.stage = .resting ∨ b.stage = .leaving) :
      Effect b { b with stage := .gone } [.counted .alive (-1)]
  | read (id : UInt16) (payload : List UInt8) (waiting : b.receiver = .waiting)
      (fits : payload.length ≤ maxPayloadSize) :
      Effect b { b with receiver := .received id payload } [.counted .recv 1]
  | heard (id : UInt16) (payload : List UInt8) (counter : Counter)
      (received : b.receiver = .received id payload) (hears : Hears id counter) :
      Effect b { b with receiver := .waiting } [.counted counter 1]
  | list (payload : List UInt8) (received : b.receiver = .received 0 payload)
      (heading : (text "Blocked").isPrefixOf payload = true) :
      Effect b { b with receiver := .applying payload } [.counted .recvSystem 1]
  | applied (payload : List UInt8) (applying : b.receiver = .applying payload) :
      Effect b { b.applyFriendList payload with receiver := .waiting }
        [.listed (parseFriendList payload).1]
  | hungUp (waiting : b.receiver = .waiting) : Effect b { b with receiver := .off } []

variable {b c : Bot} {out : List Sight}

theorem mem_pool_of_otherFrom {draws : List Nat} {name : List UInt8}
    (h : b.otherFrom draws = some name) : name ∈ b.pool ∧ name ≠ b.name := by
  induction draws with
  | nil => cases h
  | cons k rest ih =>
      unfold otherFrom at h
      split at h
      · cases h
      · rename_i drawn hdrawn
        split at h
        · rename_i hother
          cases h
          exact ⟨List.mem_of_getElem? hdrawn, hother⟩
        · exact ih h

theorem draws_add {draws : List Nat} {target : List UInt8}
    (h : b.randomOther draws = some target) (hne : target ≠ []) :
    b.Draws (.add target) := by
  unfold randomOther at h
  split at h
  · cases h
    exact absurd rfl hne
  · exact ⟨hne, mem_pool_of_otherFrom h⟩

theorem friendAction_effect {offered : Bool} (choosing : b.stage = .choosing offered)
    {choice : Choice} {draws : List Nat}
    (h : b.friendAction choice draws = some (c, out)) : Effect b c out := by
  cases choice with
  | add =>
      rcases Option.map_eq_some_iff.mp h with ⟨target, hother, htarget⟩
      split at htarget
      · cases htarget
        exact .alone offered choosing
      · rename_i hne
        cases htarget
        exact .speaks (.add target) (by rw [choosing]; exact .add offered target)
          (draws_add hother hne)
  | list =>
      cases h
      exact .speaks .list (by rw [choosing]; exact .list offered) trivial
  | chat =>
      rcases Option.map_eq_some_iff.mp h with ⟨words, hdrawn, hwords⟩
      cases hwords
      exact .speaks (.friendChat words) (by rw [choosing]; exact .friendChat offered words)
        ⟨draws, hdrawn⟩
  | accept =>
      cases h
      exact .chose offered true choosing
  | reject =>
      cases h
      exact .chose offered false choosing

theorem take_effect {accepts : Bool} (taking : b.stage = .taking accepts) {i : Nat}
    {rest : Bot} {name : List UInt8} (h : b.takePending i = some (rest, name)) :
    Effect b (if name = [] then { rest with stage := .resting }
        else { rest with stage := .taken accepts name })
      (if name = [] then [.skipped] else [.took name]) := by
  unfold takePending at h
  split at h
  · rename_i hnone
    cases h
    exact .emptied accepts taking (List.length_eq_zero_iff.mp hnone)
  · rcases Option.map_eq_some_iff.mp h with ⟨drawn, hdrawn, hpair⟩
    cases hpair
    by_cases hname : name = []
    · subst hname
      exact .nameless accepts i taking hdrawn
    · rw [if_neg hname, if_neg hname]
      exact .took accepts i name taking hdrawn

theorem control_effect {id : UInt16} {payload : List UInt8}
    (received : b.receiver = .received id payload)
    (h : (if id ≠ 0 then some ({ b with receiver := .waiting }, [.counted .recvChat 1])
      else some (b.onControl payload)) = some (c, out)) : Effect b c out := by
  split at h
  · rename_i hid
    cases h
    exact .heard id payload .recvChat received (.chat id hid)
  · rename_i hid
    have hzero : id = 0 := not_not.mp hid
    subst hzero
    unfold onControl at h
    split at h
    · cases h
      exact .heard 0 payload .recvNick received .nick
    · split at h
      · rename_i hheading
        cases h
        exact .list payload received hheading
      · cases h
        exact .heard 0 payload .recvSystem received .system

theorem step_effect {event : BotEvent} (h : b.step event = some (c, out)) :
    Effect b c out := by
  cases event with
  | dial ok =>
      simp only [step] at h
      split at h
      · rename_i hstage
        cases ok with
        | true =>
            cases h
            exact .dialed hstage.left hstage.right
        | false =>
            cases h
            exact .refused hstage.left
      · cases h
  | login =>
      simp only [step] at h
      split at h
      · rename_i hstage
        cases h
        exact .speaks .login (by rw [hstage]; exact .login) trivial
      · cases h
  | write ok =>
      simp only [step] at h
      split at h
      · rename_i saying hstage
        cases ok with
        | true =>
            cases h
            exact .wrote saying hstage
        | false =>
            cases h
            exact .failed saying hstage
      · cases h
  | chat draws =>
      simp only [step] at h
      split at h
      · rename_i hstage
        rcases Option.map_eq_some_iff.mp h with ⟨words, hdrawn, hwords⟩
        cases hwords
        exact .speaks (.chat words) (by rw [hstage]; exact .chat words) ⟨draws, hdrawn⟩
      · cases h
  | command =>
      simp only [step] at h
      split at h
      · rename_i hstage
        cases h
        exact .commanded hstage
      · cases h
  | look =>
      simp only [step] at h
      split at h
      · rename_i hstage
        cases h
        exact .looked hstage
      · cases h
  | pick n draws =>
      simp only [step] at h
      split at h
      · rename_i offered hstage
        split at h
        · rcases Option.bind_eq_some_iff.mp h with ⟨choice, _, hchoice⟩
          exact friendAction_effect hstage hchoice
        · cases h
      · cases h
  | take i =>
      simp only [step] at h
      split at h
      · rename_i accepts hstage
        rcases Option.map_eq_some_iff.mp h with ⟨⟨rest, name⟩, htake, hpair⟩
        have heffect := take_effect hstage htake
        simp only at hpair
        split at hpair <;> rename_i hname
        · cases hpair
          rw [if_pos hname, if_pos hname] at heffect
          exact heffect
        · cases hpair
          rw [if_neg hname, if_neg hname] at heffect
          exact heffect
      · cases h
  | answer =>
      simp only [step] at h
      split at h
      · rename_i accepts name hstage
        cases accepts with
        | true =>
            cases h
            exact .speaks (.accept name) (by rw [hstage]; exact .accept name) trivial
        | false =>
            cases h
            exact .speaks (.reject name) (by rw [hstage]; exact .reject name) trivial
      · cases h
  | leave =>
      simp only [step] at h
      split at h
      · rename_i hstage
        cases h
        exact .left hstage
      · cases h
  | read id payload =>
      simp only [step] at h
      split at h
      · rename_i hreceiver
        cases h
        exact .read id payload hreceiver.left hreceiver.right
      · cases h
  | control =>
      simp only [step] at h
      split at h
      · rename_i id payload hreceiver
        exact control_effect hreceiver h
      · cases h
  | apply =>
      simp only [step] at h
      split at h
      · rename_i payload hreceiver
        cases h
        exact .applied payload hreceiver
      · cases h
  | hangUp =>
      simp only [step] at h
      split at h
      · rename_i hreceiver
        cases h
        exact .hungUp hreceiver
      · cases h

end Bot
end Clients
end ContentServer
