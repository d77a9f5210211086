import ContentServer.Consumers.Service

/-!
# What the handlers do

The log of a handler determines which calls it may make.  A call that starts a
piece of work promises others: a name that was set promises the rest of the
login, a committed change of the power of a user promises the update of the
ranking, and an accepted or blocked friendship the changes of both caches.
Handlers keep their promises in order, and only messages to the client come in
between.
-/

namespace ContentServer
namespace Consumers

open Foundation Protocol Sessions Registry Storage

variable {double : Type}

/-!
# Promises
-/

/-- The user id that a login answered. -/
def loginAnswer : (o : Op double) -> Answer o -> Option Nat
  | .loginOrRegister _, answer => answer
  | _, _ => none

def Log.login (log : Log double) : Option Nat :=
  log.findSome? (fun call => loginAnswer call.1 call.2)

/-- The session and the name of a successful `SetName`. -/
def Log.nick (log : Log double) : Option (Nat × List UInt8) :=
  log.findSome? (fun call => (nameGiven call.1 call.2).head?)

/-- The promises after a call, given the log and the promises before it. -/
def promises (before : Log double) (open_ : List (Op double)) :
    (o : Op double) -> Answer o -> List (Op double)
  | .setName id name, done =>
      match done, before.login with
      | true, some u => [.setUserId id u, .rankSetName u name, .getFriendIds u]
      | _, _ => []
  | .getFriendIds u, found =>
      match found, before.nick with
      | some ids, some (id, name) =>
          [.loadFriendCache u ids, .sendRosterTo id,
            .broadcast (nickPacket id name).wire]
      | _, _ => []
  | .dropItem u, dropped =>
      match dropped with
      | some r => [.rankUpdate u r.totalPower]
      | none => []
  | .enhanceItem u _ _ _ _, enhanced =>
      match enhanced with
      | some ⟨.success, _, _, _, total⟩ => [.rankUpdate u total]
      | _ => []
  | .acceptFriend u _, friend =>
      match friend with
      | some (v + 1) => [.cacheAddFriend u (v + 1), .cacheAddFriend (v + 1) u]
      | _ => []
  | .blockFriend u _, friend =>
      match friend with
      | some (v + 1) => [.cacheRemoveFriend u (v + 1), .cacheRemoveFriend (v + 1) u]
      | _ => []
  | .sendTo _ _, _ => open_
  | _, _ => open_.tail

/-- The calls that a handler has promised and not made yet. -/
def Log.owed : Log double -> List (Op double)
  | [] => []
  | call :: before => promises before (Log.owed before) call.1 call.2

/-!
# Allowed calls
-/

/-- A text that does not begin with an `N`. -/
structure Plain (t : List UInt8) : Prop where
  notEmpty : t ≠ []
  head : t.head? ≠ some 78

/-- A text of the client under its own id, for a message that is no `/n`. -/
def Signed (msg : ShardMsg) (data : List UInt8) : Prop :=
  (readWord msg.pkt.body).1 ≠ text "/n" ∧
    exists t, data = (senderPacket msg.sessionId t).wire

/-- A message of the server, or a text of the client. -/
def OwnText (msg : ShardMsg) (data : List UInt8) : Prop :=
  (exists t, Plain t ∧ data = (errorPacket t).wire) ∨ Signed msg data

/-- The message is a line of chat. -/
def IsChat (msg : ShardMsg) : Prop :=
  msg.pkt.body.head? ≠ some 47

/-- The message is `/n` and a name. -/
def IsNick (msg : ShardMsg) (name : List UInt8) : Prop :=
  (readWord msg.pkt.body).1 = text "/n" ∧
    name = (readWord (readWord msg.pkt.body).2).1

/-- The message is `/f`, one of four commands and a name. -/
def IsFriendCommand (msg : ShardMsg) : Prop :=
  (readWord msg.pkt.body).1 = text "/f" ∧
    (readWord (readWord msg.pkt.body).2).1 ∈
      [text "add", text "accept", text "reject", text "block"] ∧
    (readWord (readWord (readWord msg.pkt.body).2).2).1 ≠ []

/-- The log has this call with this answer. -/
def Log.Has (log : Log double) (o : Op double) (answer : Answer o) : Prop :=
  (⟨o, answer⟩ : Sigma (@Answer double)) ∈ log

/-- The handler has seen that its session has a name. -/
def Log.SawName (log : Log double) (msg : ShardMsg) : Prop :=
  log.Has (.isNamed msg.sessionId) true

/-- The handler works for this user. -/
def Log.ActsFor (log : Log double) (msg : ShardMsg) (userId : Nat) : Prop :=
  log.Has (.getUserId msg.sessionId) userId

/-- The calls that the log allows, apart from the promises. -/
def Log.Allows [One double] (log : Log double) (msg : ShardMsg) (o : Op double) :
    Prop :=
  match o with
  | .isNamed id => id = msg.sessionId ∧ log = []
  | .loginOrRegister name => IsNick msg name ∧ validName name = true ∧
      log = [⟨.isNamed msg.sessionId, false⟩]
  | .setName id name => id = msg.sessionId ∧ exists u,
      log = [⟨.loginOrRegister name, some u⟩, ⟨.isNamed id, false⟩]
  | .getUserId id => id = msg.sessionId ∧ log.SawName msg
  | .sendTo _ data => OwnText msg data
  | .broadcast data => IsChat msg ∧ data = msg.pkt.wire ∧
      log = [⟨.isNamed msg.sessionId, true⟩]
  | .sendToFriends u data => log.ActsFor msg u ∧ Signed msg data
  | .addGold u _ => IsChat msg ∧ log.ActsFor msg u
  | .dropItem u => IsChat msg ∧ log.ActsFor msg u ∧
      exists amount total, log.Has (.addGold u amount) (some total)
  | .addFriend u _ | .acceptFriend u _ | .rejectFriend u _ | .blockFriend u _ =>
      IsFriendCommand msg ∧ log.ActsFor msg u
  | .enhanceItem u itemId _ success mult => log.ActsFor msg u ∧
      (exists item, log.Has (.getItem u itemId) (some (some item))) ∧
      (success = false -> mult = 1)
  | .getGold u | .getItems u | .getItem u _ | .getFriendList u | .rankOf u =>
      log.ActsFor msg u
  | .setUserId _ _ | .rankSetName _ _ | .getFriendIds _ | .loadFriendCache _ _
  | .sendRosterTo _ | .cacheAddFriend _ _ | .cacheRemoveFriend _ _
  | .rankUpdate _ _ => False
  | .post _ m => m.type ≠ .client
  | .findByName _ | .rankTop _ _ | .uniformInt _ _ | .uniformReal _ _ => True

/-- Promised calls come in order; only messages may come in between. -/
def Log.InTurn (log : Log double) (o : Op double) : Prop :=
  match log.owed with
  | [] => True
  | next :: _ => o = next ∨ exists id data, o = .sendTo id data

/-- What the handlers follow, with their log as the note. -/
def conduct [One double] (msg : ShardMsg) :
    Discipline (@Answer double) (Log double) where
  record := fun log o answer => ⟨o, answer⟩ :: log
  allowed := fun log o =>
    (log.owed.head? = some o ∨ log.Allows msg o) ∧ log.InTurn o

/-- The handler goes on as it should, and keeps its promises. -/
def Conducts [One double] (msg : ShardMsg) (log : Log double)
    (x : Handler double Unit) : Prop :=
  (conduct msg).Follows log x (fun log _ => log.owed = [])

/-!
# The handlers
-/

section Handlers

variable [One double] {msg : ShardMsg} {log : Log double}

theorem plain_text (s : String) (h : (text s).head?.all (· != 78) = true)
    (hne : text s ≠ []) : Plain (text s) := by
  refine ⟨hne, ?_⟩
  intro hcontra
  rw [hcontra] at h
  cases h

theorem Plain.append {t : List UInt8} (h : Plain t) (u : List UInt8) :
    Plain (t ++ u) := by
  rcases t with _ | ⟨c, t⟩
  · exact absurd rfl h.notEmpty
  · exact ⟨by simp, h.head⟩

omit [One double] in
theorem inTurn_of_owed (h : log.owed = []) (o : Op double) : log.InTurn o := by
  unfold Log.InTurn
  rw [h]
  trivial

omit [One double] in
theorem inTurn_sendTo (log : Log double) (id : Nat) (data : List UInt8) :
    log.InTurn (.sendTo id data) := by
  unfold Log.InTurn
  split
  · trivial
  · exact Or.inr ⟨id, data, rfl⟩

omit [One double] in
theorem inTurn_of_head {o : Op double} (h : log.owed.head? = some o) :
    log.InTurn o := by
  unfold Log.InTurn
  cases howed : log.owed with
  | nil => trivial
  | cons next rest =>
      rw [howed] at h
      exact Or.inl (Option.some.inj h).symm

/-- A message may be sent at any time. -/
theorem allowed_sendTo {id : Nat} {data : List UInt8} (h : OwnText msg data) :
    (conduct msg).allowed log (.sendTo id data) :=
  ⟨Or.inr h, inTurn_sendTo log id data⟩

/-- A promised call may be made. -/
theorem allowed_promised {o : Op double} (h : log.owed.head? = some o) :
    (conduct msg).allowed log o :=
  ⟨Or.inl h, inTurn_of_head h⟩

/-- Any other call waits for the promises. -/
theorem allowed_next {o : Op double} (h : log.Allows msg o) (howed : log.owed = []) :
    (conduct msg).allowed log o :=
  ⟨Or.inr h, inTurn_of_owed howed o⟩

theorem follows_sendError {t : List UInt8} (ht : Plain t) {id : Nat}
    {post : Log double -> Unit -> Prop}
    (hpost : forall sent, post (⟨.sendTo id (errorPacket t).wire, sent⟩ :: log) ()) :
    (conduct msg).Follows log (sendError id t) post :=
  ⟨allowed_sendTo (Or.inl ⟨t, ht, rfl⟩), fun sent => hpost sent⟩

theorem conducts_sendError {t : List UInt8} (ht : Plain t) (id : Nat)
    (howed : log.owed = []) : Conducts msg log (sendError id t) :=
  follows_sendError ht fun _ => howed

theorem conducts_handleNick (iss : List UInt8)
    (hcommand : readWord msg.pkt.body = (text "/n", iss)) :
    Conducts msg [] (handleNick msg.sessionId iss : Handler double Unit) := by
  unfold handleNick
  by_cases hlength : ((readWord iss).1.length < 3 || (readWord iss).1.length ≥ 10) = true
  · simp only [if_pos hlength]
    exact conducts_sendError (plain_text _ (by decide) (by decide)) _ rfl
  simp only [if_neg hlength]
  have hvalid : validName (readWord iss).1 = true := by
    unfold validName
    simpa using hlength
  have hnick : IsNick msg (readWord iss).1 := ⟨by rw [hcommand], by rw [hcommand]⟩
  refine ⟨allowed_next ⟨rfl, rfl⟩ rfl, fun named => ?_⟩
  cases named with
  | true => exact conducts_sendError (plain_text _ (by decide) (by decide)) _ rfl
  | false =>
      refine ⟨allowed_next ⟨hnick, hvalid, rfl⟩ rfl, fun login => ?_⟩
      cases login with
      | none => exact conducts_sendError (plain_text _ (by decide) (by decide)) _ rfl
      | some userId =>
          refine ⟨allowed_next ⟨rfl, userId, rfl⟩ rfl, fun done => ?_⟩
          cases done with
          | false =>
              exact conducts_sendError (plain_text _ (by decide) (by decide)) _ rfl
          | true =>
              refine ⟨allowed_promised rfl, fun _ => ⟨allowed_promised rfl, fun _ =>
                ⟨allowed_promised rfl, fun found => ?_⟩⟩⟩
              cases found with
              | none => exact rfl
              | some ids =>
                  exact ⟨allowed_promised rfl, fun _ => ⟨allowed_promised rfl,
                    fun _ => ⟨allowed_promised rfl, fun _ => rfl⟩⟩⟩

/-- The handler has been let in: its session has a name, and nothing is owed. -/
structure Admitted (msg : ShardMsg) (log : Log double) : Prop where
  sawName : log.SawName msg
  owed : log.owed = []

/-- It has also asked for the user of the session. -/
structure Serves (msg : ShardMsg) (userId : Nat) (log : Log double) : Prop
    extends Admitted msg log where
  acts : log.ActsFor msg userId

omit [One double] in
theorem Admitted.cons (h : Admitted msg log) (o : Op double) (answer : Answer o)
    (hpromises : promises log [] o answer = []) :
    Admitted msg (⟨o, answer⟩ :: log) where
  sawName := List.mem_cons_of_mem _ h.sawName
  owed := by
    show promises log log.owed o answer = []
    rw [h.owed]
    exact hpromises

omit [One double] in
theorem Serves.cons {userId : Nat} (h : Serves msg userId log) (o : Op double)
    (answer : Answer o) (hpromises : promises log [] o answer = []) :
    Serves msg userId (⟨o, answer⟩ :: log) where
  toAdmitted := h.toAdmitted.cons o answer hpromises
  acts := List.mem_cons_of_mem _ h.acts

/-- The user of the session is asked for once the session is known to have one. -/
theorem Admitted.getUserId (h : Admitted msg log)
    {next : Nat -> Handler double Unit}
    (hnext : forall userId, Serves msg userId
        (⟨.getUserId msg.sessionId, userId⟩ :: log) ->
      Conducts msg (⟨.getUserId msg.sessionId, userId⟩ :: log) (next userId)) :
    Conducts msg log (Program.call (.getUserId msg.sessionId) next) := by
  refine ⟨allowed_next ⟨rfl, h.sawName⟩ h.owed, fun userId => hnext userId ?_⟩
  exact ⟨h.cons _ _ rfl, List.mem_cons_self⟩

theorem conducts_rewardChat (hchat : IsChat msg) (h : Admitted msg log) :
    Conducts msg log (rewardChat msg.sessionId) := by
  refine h.getUserId fun userId h => ?_
  refine ⟨allowed_next trivial h.owed, fun gold => ?_⟩
  replace h := h.cons (.uniformInt 1 10) gold rfl
  refine ⟨allowed_next ⟨hchat, h.acts⟩ h.owed, fun added => ?_⟩
  replace h := h.cons (.addGold userId (toUint64 gold)) added rfl
  cases added with
  | none => exact h.owed
  | some total =>
      refine ⟨allowed_next trivial h.owed, fun draw => ?_⟩
      replace h := h.cons (.uniformInt 1 50) draw rfl
      change Conducts msg _ (if draw = 1 then _ else _)
      by_cases hdraw : draw = 1
      · rw [if_pos hdraw]
        refine ⟨allowed_next ⟨hchat, h.acts, toUint64 gold, total, ?_⟩ h.owed,
          fun dropped => ?_⟩
        · exact List.mem_cons_of_mem _ List.mem_cons_self
        cases dropped with
        | none => exact (h.cons (.dropItem userId) none rfl).owed
        | some item =>
            refine ⟨allowed_promised rfl, fun _ => ?_⟩
            refine conducts_sendError ?_ _ rfl
            exact (((plain_text _ (by decide) (by decide)).append _).append _).append _
      · rw [if_neg hdraw]
        exact h.owed

/-!
# Friends
-/

/-- The name that follows one of the commands on friends. -/
def FriendInput (msg : ShardMsg) (iss : List UInt8) : Prop :=
  (readWord iss).1 ≠ [] -> IsFriendCommand msg

theorem conducts_handleFriendAdd (iss : List UInt8) (hinput : FriendInput msg iss)
    (h : Admitted msg log) : Conducts msg log (handleFriendAdd msg.sessionId iss) := by
  unfold handleFriendAdd
  by_cases hname : (readWord iss).1 = []
  · simp only [if_pos hname]
    exact conducts_sendError (plain_text _ (by decide) (by decide)) _ h.owed
  simp only [if_neg hname]
  refine h.getUserId fun userId h => ?_
  refine ⟨allowed_next ⟨hinput hname, h.acts⟩ h.owed, fun added => ?_⟩
  replace h := h.cons (.addFriend userId (readWord iss).1) added rfl
  cases added with
  | none => exact conducts_sendError (plain_text _ (by decide) (by decide)) _ h.owed
  | some ok =>
      cases ok with
      | false =>
          exact conducts_sendError (plain_text _ (by decide) (by decide)) _ h.owed
      | true =>
          exact conducts_sendError
            ((plain_text _ (by decide) (by decide)).append _) _ h.owed

theorem conducts_handleFriendAccept (iss : List UInt8)
    (hinput : FriendInput msg iss) (h : Admitted msg log) :
    Conducts msg log (handleFriendAccept msg.sessionId iss) := by
  unfold handleFriendAccept
  by_cases hname : (readWord iss).1 = []
  · simp only [if_pos hname]
    exact conducts_sendError (plain_text _ (by decide) (by decide)) _ h.owed
  simp only [if_neg hname]
  refine h.getUserId fun userId h => ?_
  refine ⟨allowed_next ⟨hinput hname, h.acts⟩ h.owed, fun friend => ?_⟩
  rcases friend with _ | _ | friendId
  · replace h := h.cons (.acceptFriend userId (readWord iss).1) none rfl
    exact conducts_sendError (plain_text _ (by decide) (by decide)) _ h.owed
  · replace h := h.cons (.acceptFriend userId (readWord iss).1) (some 0) rfl
    exact conducts_sendError (plain_text _ (by decide) (by decide)) _ h.owed
  · refine ⟨allowed_promised rfl, fun _ => ⟨allowed_promised rfl, fun _ => ?_⟩⟩
    exact conducts_sendError ((plain_text _ (by decide) (by decide)).append _) _ rfl

theorem conducts_handleFriendReject (iss : List UInt8)
    (hinput : FriendInput msg iss) (h : Admitted msg log) :
    Conducts msg log (handleFriendReject msg.sessionId iss) := by
  unfold handleFriendReject
  by_cases hname : (readWord iss).1 = []
  · simp only [if_pos hname]
    exact conducts_sendError (plain_text _ (by decide) (by decide)) _ h.owed
  simp only [if_neg hname]
  refine h.getUserId fun userId h => ?_
  refine ⟨allowed_next ⟨hinput hname, h.acts⟩ h.owed, fun rejected => ?_⟩
  replace h := h.cons (.rejectFriend userId (readWord iss).1) rejected rfl
  cases rejected with
  | none => exact conducts_sendError (plain_text _ (by decide) (by decide)) _ h.owed
  | some ok =>
      cases ok with
      | false =>
          exact conducts_sendError (plain_text _ (by decide) (by decide)) _ h.owed
      | true =>
          exact conducts_sendError
            ((plain_text _ (by decide) (by decide)).append _) _ h.owed

theorem conducts_handleFriendBlock (iss : List UInt8)
    (hinput : FriendInput msg iss) (h : Admitted msg log) :
    Conducts msg log (handleFriendBlock msg.sessionId iss) := by
  unfold handleFriendBlock
  by_cases hname : (readWord iss).1 = []
  · simp only [if_pos hname]
    exact conducts_sendError (plain_text _ (by decide) (by decide)) _ h.owed
  simp only [if_neg hname]
  refine h.getUserId fun userId h => ?_
  refine ⟨allowed_next ⟨hinput hname, h.acts⟩ h.owed, fun friend => ?_⟩
  rcases friend with _ | _ | friendId
  · replace h := h.cons (.blockFriend userId (readWord iss).1) none rfl
    exact conducts_sendError (plain_text _ (by decide) (by decide)) _ h.owed
  · replace h := h.cons (.blockFriend userId (readWord iss).1) (some 0) rfl
    exact conducts_sendError (plain_text _ (by decide) (by decide)) _ h.owed
  · refine ⟨allowed_promised rfl, fun _ => ⟨allowed_promised rfl, fun _ => ?_⟩⟩
    exact conducts_sendError ((plain_text _ (by decide) (by decide)).append _) _ rfl

theorem conducts_handleFriendList (iss : List UInt8) (h : Admitted msg log) :
    Conducts msg log (handleFriendList msg.sessionId iss) := by
  unfold handleFriendList
  by_cases hname : (readWord iss).1 = []
  · simp only [hname, ne_eq, not_true_eq_false, if_false]
    refine h.getUserId fun userId h => ?_
    refine ⟨allowed_next h.acts h.owed, fun list => ?_⟩
    replace h := h.cons (.getFriendList userId) list rfl
    cases list with
    | none => exact conducts_sendError (plain_text _ (by decide) (by decide)) _ h.owed
    | some list =>
        refine conducts_sendError ?_ _ h.owed
        exact (((((((plain_text _ (by decide) (by decide)).append _).append _).append
          _).append _).append _).append _).append _
  · simp only [hname, ne_eq, not_false_eq_true, if_true]
    exact conducts_sendError (plain_text _ (by decide) (by decide)) _ h.owed

theorem conducts_handleFriendBroadcast (t : List UInt8)
    (hcommand : (readWord msg.pkt.body).1 ≠ text "/n") (h : Admitted msg log) :
    Conducts msg log (handleFriendBroadcast msg.sessionId t) := by
  unfold handleFriendBroadcast
  by_cases ht : t = []
  · simp only [if_pos ht]
    exact conducts_sendError (plain_text _ (by decide) (by decide)) _ h.owed
  simp only [if_neg ht]
  refine h.getUserId fun userId h => ?_
  refine ⟨allowed_next ⟨h.acts, hcommand, t, rfl⟩ h.owed, fun _ => ?_⟩
  replace h := h.cons (.sendToFriends userId (senderPacket msg.sessionId t).wire) () rfl
  exact ⟨allowed_sendTo (Or.inr ⟨hcommand, t, rfl⟩), fun sent => (h.cons _ _ rfl).owed⟩

theorem conducts_handleFriend (iss : List UInt8)
    (hcommand : readWord msg.pkt.body = (text "/f", iss)) (h : Admitted msg log) :
    Conducts msg log (handleFriend msg.sessionId iss) := by
  have hinput : forall command, (readWord iss).1 = command ->
      command ∈ [text "add", text "accept", text "reject", text "block"] ->
      FriendInput msg (readWord iss).2 := by
    intro command hcommand' hmem hname
    refine ⟨by rw [hcommand], ?_, ?_⟩
    · rw [hcommand, hcommand']
      exact hmem
    · rw [hcommand]
      exact hname
  unfold handleFriend
  simp only
  split
  next hadd =>
    exact conducts_handleFriendAdd _ (hinput _ hadd (by decide)) h
  split
  next haccept =>
    exact conducts_handleFriendAccept _ (hinput _ haccept (by decide)) h
  split
  next hreject =>
    exact conducts_handleFriendReject _ (hinput _ hreject (by decide)) h
  split
  next hblock =>
    exact conducts_handleFriendBlock _ (hinput _ hblock (by decide)) h
  split
  next hlist => exact conducts_handleFriendList _ h
  next hother =>
    refine conducts_handleFriendBroadcast _ ?_ h
    rw [hcommand]
    exact (by decide : text "/f" ≠ text "/n")

/-!
# The inventory and the ranking
-/

theorem conducts_showInventory (h : Admitted msg log) :
    Conducts msg log (showInventory msg.sessionId : Handler double Unit) := by
  unfold showInventory
  refine h.getUserId fun userId h => ?_
  refine ⟨allowed_next h.acts h.owed, fun gold => ?_⟩
  replace h := h.cons (.getGold userId) gold rfl
  cases gold with
  | none => exact conducts_sendError (plain_text _ (by decide) (by decide)) _ h.owed
  | some gold =>
      refine ⟨allowed_next h.acts h.owed, fun items => ?_⟩
      replace h := h.cons (.getItems userId) items rfl
      cases items with
      | none =>
          exact conducts_sendError (plain_text _ (by decide) (by decide)) _ h.owed
      | some items =>
          refine conducts_sendError ?_ _ h.owed
          exact (((((plain_text _ (by decide) (by decide)).append _).append _).append
            _).append _).append _

theorem conducts_replyEnhance {userId itemId cost : Nat} {success : Bool}
    {mult : double} (price : Int) (r : EnhanceResult) :
    Conducts msg (⟨.enhanceItem userId itemId cost success mult, some r⟩ :: log)
      (replyEnhance msg.sessionId userId price r) := by
  rcases r with ⟨status, level, power, gold, total⟩
  cases status with
  | noGold =>
      refine conducts_sendError ?_ _ rfl
      exact ((plain_text _ (by decide) (by decide)).append _).append _
  | notOwned => exact conducts_sendError (plain_text _ (by decide) (by decide)) _ rfl
  | failed =>
      refine conducts_sendError ?_ _ rfl
      exact (((((plain_text _ (by decide) (by decide)).append _).append _).append
        _).append _).append _
  | success =>
      change (conduct msg).Follows _ (sendError msg.sessionId _ >>= fun _ =>
        call (.rankUpdate userId total)) _
      rw [Discipline.follows_bind]
      refine follows_sendError ?_ fun sent => ?_
      · exact (((((((plain_text _ (by decide) (by decide)).append _).append _).append
          _).append _).append _).append _).append _
      · exact ⟨allowed_promised rfl, fun _ => rfl⟩

theorem conducts_handleEnhance (iss : List UInt8) (h : Admitted msg log) :
    Conducts msg log (handleEnhance msg.sessionId iss) := by
  unfold handleEnhance
  cases readUint 64 iss with
  | none => exact conducts_sendError (plain_text _ (by decide) (by decide)) _ h.owed
  | some read =>
      refine h.getUserId fun userId h => ?_
      refine ⟨allowed_next h.acts h.owed, fun found => ?_⟩
      replace h := h.cons (.getItem userId read.1) found rfl
      rcases found with _ | _ | item
      · exact conducts_sendError (plain_text _ (by decide) (by decide)) _ h.owed
      · exact conducts_sendError (plain_text _ (by decide) (by decide)) _ h.owed
      · have hread : Log.Has (⟨.getItem userId read.1, some (some item)⟩ ::
            ⟨.getUserId msg.sessionId, userId⟩ :: log)
            (.getItem userId read.1) (some (some item)) := List.mem_cons_self
        refine ⟨allowed_next trivial h.owed, fun draw => ?_⟩
        replace h := h.cons (.uniformInt 1 100) draw rfl
        replace hread := List.mem_cons_of_mem
          (⟨.uniformInt 1 100, draw⟩ : Sigma (@Answer double)) hread
        change Conducts msg _ (if decide (draw ≤ enhanceRate item.enhanceLevel) = true
          then _ else _)
        cases decide (draw ≤ enhanceRate item.enhanceLevel) with
        | false =>
            refine ⟨allowed_next ⟨h.acts, ⟨item, hread⟩, fun _ => rfl⟩ h.owed,
              fun reply => ?_⟩
            cases reply with
            | none =>
                exact conducts_sendError (plain_text _ (by decide) (by decide)) _ rfl
            | some r => exact conducts_replyEnhance _ r
        | true =>
            refine ⟨allowed_next trivial h.owed, fun mult => ?_⟩
            replace h := h.cons (.uniformReal 1.20 1.25) mult rfl
            replace hread := List.mem_cons_of_mem
              (⟨.uniformReal 1.20 1.25, mult⟩ : Sigma (@Answer double)) hread
            refine ⟨allowed_next ⟨h.acts, ⟨item, hread⟩, fun hfalse => by cases hfalse⟩
              h.owed, fun reply => ?_⟩
            cases reply with
            | none =>
                exact conducts_sendError (plain_text _ (by decide) (by decide)) _ rfl
            | some r => exact conducts_replyEnhance _ r

theorem conducts_handleInventory (iss : List UInt8) (h : Admitted msg log) :
    Conducts msg log (handleInventory msg.sessionId iss) := by
  unfold handleInventory
  simp only
  split
  · exact conducts_showInventory h
  split
  · exact conducts_handleEnhance _ h
  · exact conducts_sendError (plain_text _ (by decide) (by decide)) _ h.owed

theorem conducts_handleTrade (iss : List UInt8) (h : Admitted msg log) :
    Conducts msg log (handleTrade msg.sessionId iss : Handler double Unit) := by
  unfold handleTrade
  refine ⟨allowed_next trivial h.owed, fun id => ?_⟩
  replace h := h.cons (.findByName (readWord iss).1) id rfl
  exact ⟨allowed_next (fun hclient => by cases hclient) h.owed,
    fun _ => (h.cons (.post _ _) () rfl).owed⟩

theorem plain_decimal (n : Nat) : Plain (decimal n) := by
  refine ⟨decimal_ne_nil n, ?_⟩
  intro hcontra
  have hdigit := isDigit_of_mem_decimal n 78 (List.mem_of_mem_head? hcontra)
  revert hdigit
  decide

theorem conducts_sendPages {lines : List (List UInt8)} {body : List UInt8}
    (hlines : forall line, line ∈ lines -> Plain line) (hbody : Plain body)
    (h : Admitted msg log) :
    Conducts msg log (sendPages msg.sessionId lines body : Handler double Unit) := by
  induction lines generalizing body log with
  | nil =>
      unfold sendPages
      rw [if_neg hbody.notEmpty]
      exact conducts_sendError hbody _ h.owed
  | cons line rest ih =>
      have hrest := fun l hl => hlines l (List.mem_cons_of_mem line hl)
      unfold sendPages
      by_cases hfull : body.length + line.length > MESSAGE_SIZE
      · rw [if_pos hfull]
        refine ⟨allowed_sendTo (Or.inl ⟨body, hbody, rfl⟩), fun sent => ?_⟩
        exact ih hrest (hlines line List.mem_cons_self) (h.cons _ sent rfl)
      · rw [if_neg hfull]
        exact ih hrest (hbody.append line) h

theorem conducts_showRanker (h : Admitted msg log) :
    Conducts msg log (showRanker msg.sessionId : Handler double Unit) := by
  unfold showRanker
  refine ⟨allowed_next trivial h.owed, fun topRank => ?_⟩
  replace h := h.cons (.rankTop 0 19) topRank rfl
  change Conducts msg _ (if topRank.isEmpty = true then _ else _)
  by_cases hempty : topRank.isEmpty = true
  · rw [if_pos hempty]
    exact conducts_sendError (plain_text _ (by decide) (by decide)) _ h.owed
  · rw [if_neg hempty]
    refine conducts_sendPages ?_ (plain_text _ (by decide) (by decide)) h
    intro line hline
    rcases List.mem_mapIdx.mp hline with ⟨i, hi, hsame⟩
    rw [← hsame]
    exact (plain_decimal _).append _

theorem conducts_showMyRank (h : Admitted msg log) :
    Conducts msg log (showMyRank msg.sessionId : Handler double Unit) := by
  unfold showMyRank
  refine h.getUserId fun userId h => ?_
  refine ⟨allowed_next h.acts h.owed, fun rank => ?_⟩
  replace h := h.cons (.rankOf userId) rank rfl
  cases rank with
  | none => exact conducts_sendError (plain_text _ (by decide) (by decide)) _ h.owed
  | some myRank =>
      refine ⟨allowed_next trivial h.owed, fun around => ?_⟩
      replace h := h.cons (.rankTop (max 0 (myRank - 5)) (myRank + 5)) around rfl
      refine conducts_sendPages ?_ ?_ h.toAdmitted
      · intro line hline
        rcases List.mem_mapIdx.mp hline with ⟨i, hi, hsame⟩
        rw [← hsame]
        split
        · exact ((plain_text _ (by decide) (by decide)).append _).append _
        · exact ((plain_text _ (by decide) (by decide)).append _).append _
      · exact ((plain_text _ (by decide) (by decide)).append _).append _

theorem conducts_handleRanking (iss : List UInt8) (h : Admitted msg log) :
    Conducts msg log (handleRanking msg.sessionId iss : Handler double Unit) := by
  unfold handleRanking
  simp only
  split
  · exact conducts_showRanker h
  split
  · exact conducts_showMyRank h
  · exact conducts_sendError (plain_text _ (by decide) (by decide)) _ h.owed

theorem conducts_handleWhisper (iss : List UInt8)
    (hcommand : (readWord msg.pkt.body).1 ≠ text "/n") (h : Admitted msg log) :
    Conducts msg log (handleWhisper msg.sessionId iss : Handler double Unit) := by
  unfold handleWhisper
  cases readUint 64 iss with
  | none => exact h.owed
  | some read =>
      simp only
      split
      · exact h.owed
      · refine ⟨allowed_sendTo (Or.inr ⟨hcommand, _, rfl⟩), fun sent => ?_⟩
        replace h := h.cons (.sendTo _ _) sent rfl
        cases sent with
        | false => exact h.owed
        | true =>
            exact ⟨allowed_sendTo (Or.inr ⟨hcommand, _, rfl⟩), fun again =>
              (h.cons (.sendTo _ _) again rfl).owed⟩

/-!
# Dispatch
-/

omit [One double] in
theorem admitted_named (msg : ShardMsg) :
    Admitted msg ([⟨.isNamed msg.sessionId, true⟩] : Log double) :=
  ⟨List.mem_cons_self, rfl⟩

/-- The commands of a session that has a name. -/
theorem conducts_command {cmd iss : List UInt8}
    (hcommand : readWord msg.pkt.body = (cmd, iss)) (h : Admitted msg log) :
    Conducts msg log
      (if cmd = text "/w" then handleWhisper msg.sessionId iss
      else if cmd = text "/f" then handleFriend msg.sessionId iss
      else if cmd = text "/i" then handleInventory msg.sessionId iss
      else if cmd = text "/r" then handleRanking msg.sessionId iss
      else if cmd = text "/t" then handleTrade msg.sessionId iss
      else pure () : Handler double Unit) := by
  split
  next hwhisper =>
    refine conducts_handleWhisper iss ?_ h
    rw [hcommand, hwhisper]
    exact (by decide : text "/w" ≠ text "/n")
  split
  next hfriend =>
    subst hfriend
    exact conducts_handleFriend iss hcommand h
  split
  · exact conducts_handleInventory iss h
  split
  · exact conducts_handleRanking iss h
  split
  · exact conducts_handleTrade iss h
  · exact h.owed

theorem conducts_handleInternal (msg : ShardMsg) :
    Conducts msg [] (handleInternal msg : Handler double Unit) := by
  unfold handleInternal
  split
  · exact rfl
  · exact ⟨allowed_next ⟨rfl, rfl⟩ rfl, fun _ => rfl⟩

/-- The handler of every message, from its first call to its last. -/
theorem conducts_handle (msg : ShardMsg) :
    Conducts msg [] (handle msg : Handler double Unit) := by
  unfold handle
  by_cases hclient : msg.type = .client
  · simp only [hclient, ne_eq, not_true_eq_false, if_false]
    by_cases hchat : msg.pkt.body.head? = some 47
    · simp only [hchat, not_true_eq_false, if_false]
      rcases hcommand : readWord msg.pkt.body with ⟨cmd, iss⟩
      by_cases hnick : cmd = text "/n"
      · subst hnick
        simp only [if_true]
        exact conducts_handleNick iss hcommand
      simp only [if_neg hnick]
      refine ⟨allowed_next ⟨rfl, rfl⟩ rfl, fun named => ?_⟩
      cases named with
      | false => exact conducts_sendError (plain_text _ (by decide) (by decide)) _ rfl
      | true => exact conducts_command hcommand (admitted_named msg)
    · simp only [hchat, not_false_eq_true, if_true]
      refine ⟨allowed_next ⟨rfl, rfl⟩ rfl, fun named => ?_⟩
      cases named with
      | false => exact conducts_sendError (plain_text _ (by decide) (by decide)) _ rfl
      | true =>
          refine ⟨allowed_next ⟨hchat, rfl, rfl⟩ rfl, fun _ => ?_⟩
          exact conducts_rewardChat hchat
            ((admitted_named msg).cons (.broadcast msg.pkt.wire) () rfl)
  · simp only [hclient, ne_eq, not_false_eq_true, if_true]
    exact conducts_handleInternal msg

end Handlers

end Consumers
end ContentServer
