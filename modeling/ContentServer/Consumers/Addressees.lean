import ContentServer.Consumers.Dispatch

/-!
# Whom a handler addresses

A line of chat is for everybody, a whisper for one session and a line for friends
for the friends of its user.  No other line is passed on.  Only handlers of client
messages send or post anything; what goes to other sessions is what the line says,
once, to those it is for, and what they post is a trade request in the name of
their session.
-/

namespace ContentServer
namespace Consumers

open Foundation Protocol Sessions Registry Storage

variable {double : Type}

/-!
# What a line says
-/

/-- The words of a client, and whom they are for. -/
inductive Speech where
  | toAll (words : List UInt8)
  | whisper (target : Nat) (words : List UInt8)
  | toFriends (words : List UInt8)
deriving DecidableEq

def Speech.words : Speech -> List UInt8
  | toAll t => t
  | whisper _ t => t
  | toFriends t => t

/-- The commands behind `/f` that say nothing to the friends. -/
def friendCommandWords : List (List UInt8) :=
  [text "add", text "accept", text "reject", text "block", text "list"]

/-- What a line says; the other lines are between the client and the server. -/
def speechOf (body : List UInt8) : Option Speech :=
  if body.head? ≠ some 47 then some (.toAll body)
  else
    let (cmd, iss) := readWord body
    if cmd = text "/w" then
      match readUint 64 iss with
      | none => none
      | some (target, rest) =>
          let words := readLine (skipSpace rest)
          if words = [] then none else some (.whisper target words)
    else if cmd = text "/f" then
      let (command, rest) := readWord iss
      if command ∈ friendCommandWords then none
      else
        let words := command ++ readLine rest
        if words = [] then none else some (.toFriends words)
    else none

theorem skipSpace_suffix (b : List UInt8) : skipSpace b <:+ b :=
  List.dropWhile_suffix _

/-- The word and the rest after it stand in the input one after the other. -/
theorem readWord_append (b : List UInt8) :
    (readWord b).1 ++ (readWord b).2 = skipSpace b := by
  unfold readWord
  rw [List.span_eq_takeWhile_dropWhile]
  exact List.takeWhile_append_dropWhile

theorem readWord_suffix (b : List UInt8) : (readWord b).2 <:+ b := by
  have htail : (readWord b).2 <:+ skipSpace b := by
    rw [← readWord_append b]
    exact List.suffix_append _ _
  exact htail.trans (skipSpace_suffix b)

theorem readLine_initial (b : List UInt8) : readLine b <+: b :=
  List.takeWhile_prefix _

/-- The rest behind a number is the end of the input. -/
theorem readUint_suffix {bits : Nat} {b rest : List UInt8} {v : Nat}
    (h : readUint bits b = some (v, rest)) : rest <:+ b := by
  unfold readUint at h
  simp only at h
  have hunsigned : (if (skipSpace b).head? = some 45 ∨ (skipSpace b).head? = some 43
      then (skipSpace b).tail else skipSpace b) <:+ b := by
    split
    · exact (List.tail_suffix _).trans (skipSpace_suffix b)
    · exact skipSpace_suffix b
  split at h
  · cases h
  · rename_i digits after hne hspan
    split at h
    · cases h
      rw [List.span_eq_takeWhile_dropWhile] at hspan
      have hafter := (Prod.mk.inj hspan).right
      rw [← hafter]
      exact (List.dropWhile_suffix _).trans hunsigned
    · cases h

section Speeches

variable {body t : List UInt8} {target : Nat} {sp : Speech}

/-- The words of a line are a part of it. -/
theorem words_part (h : speechOf body = some sp) : sp.words <:+: body := by
  unfold speechOf at h
  split at h
  · cases h
    exact List.infix_refl body
  · have hiss := readWord_suffix body
    simp only at h
    split at h
    · split at h
      · cases h
      · next target rest hread =>
          split at h
          · cases h
          · cases h
            have hrest := (skipSpace_suffix rest).trans (readUint_suffix hread)
            exact (readLine_initial _).isInfix.trans (hrest.trans hiss).isInfix
    · split at h
      · split at h
        · cases h
        · split at h
          · cases h
          · cases h
            -- the command word and the rest of its line follow each other
            have hline : (readWord (readWord body).2).1 ++
                readLine (readWord (readWord body).2).2 <+:
                (readWord (readWord body).2).1 ++ (readWord (readWord body).2).2 :=
              (List.prefix_append_right_inj _).mpr (readLine_initial _)
            rw [readWord_append] at hline
            exact hline.isInfix.trans ((skipSpace_suffix _).trans hiss).isInfix
      · cases h

/-- Nobody whispers nothing. -/
theorem words_ne_nil (h : speechOf body = some sp) (hsp : sp ≠ .toAll []) :
    sp.words ≠ [] := by
  unfold speechOf at h
  split at h
  · cases h
    intro hnil
    replace hnil : body = [] := hnil
    rw [hnil] at hsp
    exact hsp rfl
  · simp only at h
    split at h
    · split at h
      · cases h
      · split at h
        · cases h
        · next hne =>
            cases h
            exact hne
    · split at h
      · split at h
        · cases h
        · split at h
          · cases h
          · next hne =>
              cases h
              exact hne
      · cases h

end Speeches

/-!
# What a handler sends, and to whom
-/

/-- The call may reach another session than that of the message. -/
def Op.reaches (msg : ShardMsg) : Op double -> Bool
  | .sendTo id _ => id ≠ msg.sessionId
  | .broadcast _ => true
  | .sendToFriends _ _ => true
  | _ => false

/-- No other session has heard of the message. -/
def Log.Unheard (log : Log double) (msg : ShardMsg) : Prop :=
  forall call, call ∈ log -> call.1.reaches msg = false

theorem Log.Unheard.cons {log : Log double} {msg : ShardMsg} (h : log.Unheard msg)
    {o : Op double} (ho : o.reaches msg = false) (answer : Answer o) :
    Log.Unheard (⟨o, answer⟩ :: log) msg := by
  intro call hcall
  rcases List.mem_cons.mp hcall with rfl | hold
  · exact ho
  · exact h call hold

/-- The message that asks the owner of a name for a trade. -/
def tradeRequest (fromSid : Nat) : ShardMsg where
  type := .tradeRequest
  fromSid := fromSid
  pkt := Packet.ofBytes []

/-- The words of the client go to those they are for, before anybody else heard of
them, and back to the client; everything else is said to the client alone. -/
def addressing (msg : ShardMsg) : Discipline (@Answer double) (Log double) where
  record := fun log o answer => ⟨o, answer⟩ :: log
  allowed := fun log o =>
    match o with
    | .isNamed _ => True
    | .sendTo id data => msg.type = .client ∧
        ((id = msg.sessionId ∧ ((exists t, data = (errorPacket t).wire) ∨
            exists sp : Speech, sp ≠ .toAll [] ∧ speechOf msg.pkt.body = some sp ∧
              data = (senderPacket msg.sessionId sp.words).wire)) ∨
          log.Unheard msg ∧ exists t, speechOf msg.pkt.body = some (.whisper id t) ∧
            data = (senderPacket msg.sessionId t).wire)
    | .sendToFriends u data => msg.type = .client ∧ log.Unheard msg ∧
        log.ActsFor msg u ∧ exists t, speechOf msg.pkt.body = some (.toFriends t) ∧
          data = (senderPacket msg.sessionId t).wire
    | .broadcast data => msg.type = .client ∧ log.Unheard msg ∧
        ((speechOf msg.pkt.body = some (.toAll msg.pkt.body) ∧ data = msg.pkt.wire) ∨
          exists name, data = (nickPacket msg.sessionId name).wire)
    | .post _ m => msg.type = .client ∧ m = tradeRequest msg.sessionId
    | _ => msg.type = .client

/-- The rest of a handler addresses only those that it may. -/
abbrev Addresses (msg : ShardMsg) (log : Log double) (x : Handler double Unit) : Prop :=
  (addressing msg).Follows log x (fun _ _ => True)

/-- A handler that talks to the client alone. -/
def Replies (msg : ShardMsg) (x : Handler double Unit) : Prop :=
  forall log, Addresses msg log x

section Handlers

variable {msg : ShardMsg}

theorem replies_done : Replies msg (Program.done () : Handler double Unit) :=
  fun _ => trivial

theorem replies_call {o : Op double} {next : Answer o -> Handler double Unit}
    (ho : forall log, (addressing msg).allowed log o) (hnext : forall a, Replies msg (next a)) :
    Replies msg (Program.call o next) :=
  fun log => ⟨ho log, fun a => hnext a _⟩

variable (hclient : msg.type = .client)
include hclient

theorem replies_sendError (t : List UInt8) :
    Replies msg (sendError msg.sessionId t : Handler double Unit) :=
  replies_call (fun _ => ⟨hclient, Or.inl ⟨rfl, Or.inl ⟨t, rfl⟩⟩⟩) fun _ => replies_done

theorem addresses_handleNick {log : Log double} (hlog : log.Unheard msg)
    (iss : List UInt8) :
    Addresses msg log (handleNick msg.sessionId iss : Handler double Unit) := by
  unfold handleNick
  simp only
  split
  · exact replies_sendError hclient _ log
  refine ⟨trivial, fun named => ?_⟩
  cases named with
  | true => exact replies_sendError hclient _ _
  | false =>
      refine ⟨hclient, fun login => ?_⟩
      cases login with
      | none => exact replies_sendError hclient _ _
      | some userId =>
          refine ⟨hclient, fun done => ?_⟩
          cases done with
          | false => exact replies_sendError hclient _ _
          | true =>
              refine ⟨hclient, fun _ => ⟨hclient, fun _ => ⟨hclient, fun friends => ?_⟩⟩⟩
              cases friends with
              | none => trivial
              | some friendIds =>
                  refine ⟨hclient, fun _ => ⟨hclient, fun _ => ⟨⟨hclient, ?_,
                    Or.inr ⟨_, rfl⟩⟩, fun _ => trivial⟩⟩⟩
                  -- a login reaches nobody before it announces the name
                  exact .cons (.cons (.cons (.cons (.cons (.cons (.cons (.cons hlog rfl _)
                    rfl _) rfl _) rfl _) rfl _) rfl _) rfl _) rfl _

theorem addresses_handleWhisper {log : Log double} (hlog : log.Unheard msg)
    (hslash : msg.pkt.body.head? = some 47)
    (hcmd : (readWord msg.pkt.body).1 = text "/w") :
    Addresses msg log
      (handleWhisper msg.sessionId (readWord msg.pkt.body).2 : Handler double Unit) := by
  unfold handleWhisper
  cases hread : readUint 64 (readWord msg.pkt.body).2 with
  | none => trivial
  | some read =>
      rcases read with ⟨target, rest⟩
      simp only
      split
      · trivial
      next hne =>
        have hsaid : speechOf msg.pkt.body =
            some (.whisper target (readLine (skipSpace rest))) := by
          unfold speechOf
          simp [hslash, hcmd, hread, hne]
        refine ⟨⟨hclient, Or.inr ⟨hlog, _, hsaid, rfl⟩⟩, fun sent => ?_⟩
        cases sent with
        | false => trivial
        | true =>
            exact ⟨⟨hclient, Or.inl ⟨rfl, Or.inr ⟨_, by simp, hsaid, rfl⟩⟩⟩,
              fun _ => trivial⟩

theorem replies_rewardChat :
    Replies msg (rewardChat msg.sessionId : Handler double Unit) := by
  unfold rewardChat
  refine replies_call (fun _ => hclient) fun userId => replies_call (fun _ => hclient)
    fun gold => replies_call (fun _ => hclient) fun paid => ?_
  cases paid with
  | none => exact replies_done
  | some total =>
      refine replies_call (fun _ => hclient) fun draw => ?_
      change Replies msg (if draw = 1 then _ else _)
      split
      · refine replies_call (fun _ => hclient) fun dropped => ?_
        cases dropped with
        | none => exact replies_done
        | some item =>
            exact replies_call (fun _ => hclient) fun _ => replies_sendError hclient _
      · exact replies_done

/-- The commands on a friend ask the database and reply. -/
theorem replies_handleFriendAdd (iss : List UInt8) :
    Replies msg (handleFriendAdd msg.sessionId iss : Handler double Unit) := by
  unfold handleFriendAdd
  simp only
  split
  · exact replies_sendError hclient _
  · refine replies_call (fun _ => hclient) fun userId =>
      replies_call (fun _ => hclient) fun done => ?_
    cases done <;> exact replies_sendError hclient _

theorem replies_handleFriendReject (iss : List UInt8) :
    Replies msg (handleFriendReject msg.sessionId iss : Handler double Unit) := by
  unfold handleFriendReject
  simp only
  split
  · exact replies_sendError hclient _
  · refine replies_call (fun _ => hclient) fun userId =>
      replies_call (fun _ => hclient) fun done => ?_
    cases done <;> exact replies_sendError hclient _

theorem replies_handleFriendAccept (iss : List UInt8) :
    Replies msg (handleFriendAccept msg.sessionId iss : Handler double Unit) := by
  unfold handleFriendAccept
  simp only
  split
  · exact replies_sendError hclient _
  · refine replies_call (fun _ => hclient) fun userId =>
      replies_call (fun _ => hclient) fun friend => ?_
    rcases friend with _ | _ | friendId
    · exact replies_sendError hclient _
    · exact replies_sendError hclient _
    · exact replies_call (fun _ => hclient) fun _ => replies_call (fun _ => hclient)
        fun _ => replies_sendError hclient _

theorem replies_handleFriendBlock (iss : List UInt8) :
    Replies msg (handleFriendBlock msg.sessionId iss : Handler double Unit) := by
  unfold handleFriendBlock
  simp only
  split
  · exact replies_sendError hclient _
  · refine replies_call (fun _ => hclient) fun userId =>
      replies_call (fun _ => hclient) fun friend => ?_
    rcases friend with _ | _ | friendId
    · exact replies_sendError hclient _
    · exact replies_sendError hclient _
    · exact replies_call (fun _ => hclient) fun _ => replies_call (fun _ => hclient)
        fun _ => replies_sendError hclient _

theorem replies_handleFriendList (iss : List UInt8) :
    Replies msg (handleFriendList msg.sessionId iss : Handler double Unit) := by
  unfold handleFriendList
  split
  · exact replies_sendError hclient _
  · refine replies_call (fun _ => hclient) fun userId =>
      replies_call (fun _ => hclient) fun list => ?_
    cases list <;> exact replies_sendError hclient _

theorem addresses_handleFriend {log : Log double} (hlog : log.Unheard msg)
    (hslash : msg.pkt.body.head? = some 47)
    (hcmd : (readWord msg.pkt.body).1 = text "/f") :
    Addresses msg log
      (handleFriend msg.sessionId (readWord msg.pkt.body).2 : Handler double Unit) := by
  unfold handleFriend
  simp only
  split
  · exact replies_handleFriendAdd hclient _ _
  split
  · exact replies_handleFriendAccept hclient _ _
  split
  · exact replies_handleFriendReject hclient _ _
  split
  · exact replies_handleFriendBlock hclient _ _
  split
  · exact replies_handleFriendList hclient _ _
  unfold handleFriendBroadcast
  split
  · exact replies_sendError hclient _ _
  next hadd haccept hreject hblock hlist hne =>
    have hsaid : speechOf msg.pkt.body = some (.toFriends
        ((readWord (readWord msg.pkt.body).2).1 ++
          readLine (readWord (readWord msg.pkt.body).2).2)) := by
      have hword : text "/f" ≠ text "/w" := by decide
      have hother : (readWord (readWord msg.pkt.body).2).1 ∉ friendCommandWords := by
        simp [friendCommandWords, hadd, haccept, hreject, hblock, hlist]
      unfold speechOf
      simp only [hslash, hcmd, hword, hother, hne, ne_eq, not_true_eq_false, if_false,
        if_true]
    refine ⟨hclient, fun userId => ⟨⟨hclient, .cons hlog rfl _, List.mem_cons_self, _, hsaid,
      rfl⟩, fun _ => ?_⟩⟩
    exact ⟨⟨hclient, Or.inl ⟨rfl, Or.inr ⟨_, by simp, hsaid, rfl⟩⟩⟩, fun _ => trivial⟩

theorem replies_replyEnhance (userId : Nat) (cost : Int) (r : EnhanceResult) :
    Replies msg (replyEnhance msg.sessionId userId cost r : Handler double Unit) := by
  rcases r with ⟨status, level, power, gold, total⟩
  cases status with
  | noGold => exact replies_sendError hclient _
  | notOwned => exact replies_sendError hclient _
  | failed => exact replies_sendError hclient _
  | success =>
      exact replies_call (fun _ => ⟨hclient, Or.inl ⟨rfl, Or.inl ⟨_, rfl⟩⟩⟩) fun _ =>
        replies_call (fun _ => hclient) fun _ => replies_done

theorem replies_handleEnhance [One double] (iss : List UInt8) :
    Replies msg (handleEnhance msg.sessionId iss : Handler double Unit) := by
  unfold handleEnhance
  cases readUint 64 iss with
  | none => exact replies_sendError hclient _
  | some read =>
      refine replies_call (fun _ => hclient) fun userId =>
        replies_call (fun _ => hclient) fun found => ?_
      rcases found with _ | _ | item
      · exact replies_sendError hclient _
      · exact replies_sendError hclient _
      · refine replies_call (fun _ => hclient) fun draw => ?_
        change Replies msg
          (if decide (draw ≤ enhanceRate item.enhanceLevel) = true then _ else _)
        cases decide (draw ≤ enhanceRate item.enhanceLevel) with
        | false =>
            refine replies_call (fun _ => hclient) fun reply => ?_
            cases reply with
            | none => exact replies_sendError hclient _
            | some r => exact replies_replyEnhance hclient _ _ r
        | true =>
            refine replies_call (fun _ => hclient) fun mult =>
              replies_call (fun _ => hclient) fun reply => ?_
            cases reply with
            | none => exact replies_sendError hclient _
            | some r => exact replies_replyEnhance hclient _ _ r

theorem replies_handleInventory [One double] (iss : List UInt8) :
    Replies msg (handleInventory msg.sessionId iss : Handler double Unit) := by
  unfold handleInventory
  simp only
  split
  · unfold showInventory
    refine replies_call (fun _ => hclient) fun userId =>
      replies_call (fun _ => hclient) fun gold => ?_
    cases gold with
    | none => exact replies_sendError hclient _
    | some gold =>
        refine replies_call (fun _ => hclient) fun items => ?_
        cases items <;> exact replies_sendError hclient _
  split
  · exact replies_handleEnhance hclient _
  · exact replies_sendError hclient _

theorem replies_sendPages (lines : List (List UInt8)) (body : List UInt8) :
    Replies msg (sendPages msg.sessionId lines body : Handler double Unit) := by
  induction lines generalizing body with
  | nil =>
      unfold sendPages
      split
      · exact replies_done
      · exact replies_sendError hclient _
  | cons line rest ih =>
      unfold sendPages
      split
      · exact replies_call (fun _ => ⟨hclient, Or.inl ⟨rfl, Or.inl ⟨body, rfl⟩⟩⟩)
          fun _ => ih line
      · exact ih (body ++ line)

theorem replies_handleRanking (iss : List UInt8) :
    Replies msg (handleRanking msg.sessionId iss : Handler double Unit) := by
  unfold handleRanking
  simp only
  split
  · unfold showRanker
    refine replies_call (fun _ => hclient) fun topRank => ?_
    change Replies msg (if topRank.isEmpty = true then _ else _)
    split
    · exact replies_sendError hclient _
    · exact replies_sendPages hclient _ _
  split
  · unfold showMyRank
    refine replies_call (fun _ => hclient) fun userId =>
      replies_call (fun _ => hclient) fun rank => ?_
    cases rank with
    | none => exact replies_sendError hclient _
    | some myRank =>
        exact replies_call (fun _ => hclient) fun around => replies_sendPages hclient _ _
  · exact replies_sendError hclient _

theorem replies_handleTrade (iss : List UInt8) :
    Replies msg (handleTrade msg.sessionId iss : Handler double Unit) :=
  replies_call (fun _ => hclient) fun _ =>
    replies_call (fun _ => ⟨hclient, rfl⟩) fun _ => replies_done

end Handlers

theorem replies_handleInternal (msg : ShardMsg) :
    Replies msg (handleInternal msg : Handler double Unit) := by
  unfold handleInternal
  split
  · exact replies_done
  · exact replies_call (fun _ => trivial) fun _ => replies_done

/-- The handler of every message addresses only those that it may. -/
theorem addresses_handle [One double] (msg : ShardMsg) :
    Addresses msg [] (handle msg : Handler double Unit) := by
  have hnew : Log.Unheard ([] : Log double) msg := fun call hcall => by cases hcall
  unfold handle
  by_cases hclient : msg.type = .client
  · simp only [hclient, ne_eq, not_true_eq_false, if_false]
    split
    next hhead =>
      have hsaid : speechOf msg.pkt.body = some (.toAll msg.pkt.body) := by
        unfold speechOf
        rw [if_pos hhead]
      refine ⟨trivial, fun named => ?_⟩
      cases named with
      | false => exact replies_sendError hclient _ _
      | true =>
          exact ⟨⟨hclient, .cons hnew rfl _, Or.inl ⟨hsaid, rfl⟩⟩,
            fun _ => replies_rewardChat hclient _⟩
    next hhead =>
      replace hhead : msg.pkt.body.head? = some 47 := not_not.mp hhead
      split
      · exact addresses_handleNick hclient hnew _
      refine ⟨trivial, fun named => ?_⟩
      have hasked : Log.Unheard [⟨.isNamed msg.sessionId, named⟩] msg :=
        .cons hnew rfl named
      cases named with
      | false => exact replies_sendError hclient _ _
      | true =>
          change Addresses msg _ (if _ then _ else _)
          split
          next hcmd => exact addresses_handleWhisper hclient hasked hhead hcmd
          split
          next hcmd => exact addresses_handleFriend hclient hasked hhead hcmd
          split
          · exact replies_handleInventory hclient _ _
          split
          · exact replies_handleRanking hclient _ _
          split
          · exact replies_handleTrade hclient _ _
          · trivial
  · simp only [hclient, ne_eq, not_false_eq_true, if_true]
    exact replies_handleInternal msg []

end Consumers
end ContentServer
