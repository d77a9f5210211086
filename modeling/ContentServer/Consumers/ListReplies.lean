import ContentServer.Consumers.Origins
import ContentServer.Consumers.Replies

/-!
# Friend lists on their way

The reply to `/f list` is the only message of the server that begins as a friend
list does.  It is made of what the database answered to its handler, and goes to
the session that asked.
-/

namespace ContentServer
namespace Consumers

open Foundation Protocol Sessions Registry Storage

variable {double : Type} {pg : Postgres double}

/-!
# Texts that are no lists
-/

/-- A text that does not begin as a friend list does. -/
def Unlisted (t : List UInt8) : Prop :=
  ¬ text "Blocked" <+: t

instance (t : List UInt8) : Decidable (Unlisted t) :=
  inferInstanceAs (Decidable (¬ _))

theorem unlisted_of_head {t : List UInt8} (h : t.head? ≠ some 66) : Unlisted t := by
  intro hlist
  rcases hlist with ⟨rest, rfl⟩
  exact h rfl

/-- A text with another first letter. -/
def Opens (t : List UInt8) : Prop :=
  exists c rest, t = c :: rest ∧ c ≠ 66

theorem Opens.append {t : List UInt8} (h : Opens t) (rest : List UInt8) :
    Opens (t ++ rest) := by
  rcases h with ⟨c, more, rfl, hc⟩
  exact ⟨c, more ++ rest, rfl, hc⟩

theorem Opens.unlisted {t : List UInt8} (h : Opens t) : Unlisted t := by
  rcases h with ⟨c, rest, rfl, hc⟩
  exact unlisted_of_head fun hhead => hc (Option.some.inj hhead)

theorem opens_of_head {t : List UInt8} {c : UInt8} (h : t.head? = some c) (hc : c ≠ 66) :
    Opens t := by
  cases t with
  | nil => cases h
  | cons first rest =>
      cases h
      exact ⟨c, rest, rfl, hc⟩

theorem opens_decimal (n : Nat) : Opens (decimal n) := by
  cases hdigits : decimal n with
  | nil => exact absurd hdigits (decimal_ne_nil n)
  | cons c rest =>
      refine ⟨c, rest, rfl, ?_⟩
      have hdigit := isDigit_of_mem_decimal n c (by rw [hdigits]; exact List.mem_cons_self)
      intro hc
      rw [hc] at hdigit
      exact absurd hdigit (by decide)

/-!
# What the handlers send
-/

/-- Texts are sent freely unless they begin as a friend list does; a friend list
is one that the database answered for the user of the session. -/
def listing (msg : ShardMsg) : Discipline (@Answer double) (Log double) where
  record := fun log o answer => ⟨o, answer⟩ :: log
  allowed := fun log o =>
    match o with
    | .sendTo id data =>
        (exists t, Unlisted t ∧ data = (errorPacket t).wire) ∨
        (exists t, data = (senderPacket msg.sessionId t).wire) ∨
        id = msg.sessionId ∧ exists u list, log.ActsFor msg u ∧
          log.Has (.getFriendList u) (some list) ∧
          data = (errorPacket (friendListText list)).wire
    | .sendToFriends _ data => exists t, data = (senderPacket msg.sessionId t).wire
    | .broadcast data => data = msg.pkt.wire ∨
        exists name, data = (nickPacket msg.sessionId name).wire
    | _ => True

/-- A handler that lists only what it was answered. -/
abbrev Lists (msg : ShardMsg) (log : Log double) (x : Handler double Unit) : Prop :=
  (listing msg).Follows log x (fun _ _ => True)

/-- A handler without friend lists. -/
def ListFree (msg : ShardMsg) (x : Handler double Unit) : Prop :=
  forall log, Lists msg log x

section Handlers

variable {msg : ShardMsg}

theorem listFree_done : ListFree msg (Program.done () : Handler double Unit) :=
  fun _ => trivial

theorem listFree_call {o : Op double} {next : Answer o -> Handler double Unit}
    (ho : forall log, (listing msg).allowed log o) (hnext : forall a, ListFree msg (next a)) :
    ListFree msg (Program.call o next) :=
  fun log => ⟨ho log, fun a => hnext a _⟩

theorem listFree_sendError {t : List UInt8} (h : Unlisted t) (id : Nat) :
    ListFree msg (sendError id t : Handler double Unit) :=
  listFree_call (fun _ => Or.inl ⟨t, h, rfl⟩) fun _ => listFree_done

theorem listFree_handleNick (iss : List UInt8) :
    ListFree msg (handleNick msg.sessionId iss : Handler double Unit) := by
  unfold handleNick
  simp only
  split
  · exact listFree_sendError (by decide) _
  refine listFree_call (fun _ => trivial) fun named => ?_
  cases named with
  | true => exact listFree_sendError (by decide) _
  | false =>
      refine listFree_call (fun _ => trivial) fun login => ?_
      cases login with
      | none => exact listFree_sendError (by decide) _
      | some userId =>
          refine listFree_call (fun _ => trivial) fun done => ?_
          cases done with
          | false => exact listFree_sendError (by decide) _
          | true =>
              refine listFree_call (fun _ => trivial) fun _ =>
                listFree_call (fun _ => trivial) fun _ =>
                  listFree_call (fun _ => trivial) fun friends => ?_
              cases friends with
              | none => exact listFree_done
              | some friendIds =>
                  exact listFree_call (fun _ => trivial) fun _ =>
                    listFree_call (fun _ => trivial) fun _ =>
                      listFree_call (fun _ => Or.inr ⟨_, rfl⟩) fun _ => listFree_done

theorem listFree_handleWhisper (iss : List UInt8) :
    ListFree msg (handleWhisper msg.sessionId iss : Handler double Unit) := by
  unfold handleWhisper
  cases readUint 64 iss with
  | none => exact listFree_done
  | some read =>
      rcases read with ⟨targetId, rest⟩
      simp only
      split
      · exact listFree_done
      · refine listFree_call (fun _ => Or.inr (Or.inl ⟨_, rfl⟩)) fun sent => ?_
        cases sent with
        | false => exact listFree_done
        | true =>
            exact listFree_call (fun _ => Or.inr (Or.inl ⟨_, rfl⟩)) fun _ => listFree_done

theorem listFree_rewardChat :
    ListFree msg (rewardChat msg.sessionId : Handler double Unit) := by
  unfold rewardChat
  refine listFree_call (fun _ => trivial) fun userId =>
    listFree_call (fun _ => trivial) fun gold => listFree_call (fun _ => trivial) fun paid => ?_
  cases paid with
  | none => exact listFree_done
  | some total =>
      refine listFree_call (fun _ => trivial) fun draw => ?_
      change ListFree msg (if draw = 1 then _ else _)
      split
      · refine listFree_call (fun _ => trivial) fun dropped => ?_
        cases dropped with
        | none => exact listFree_done
        | some item =>
            refine listFree_call (fun _ => trivial) fun _ => listFree_sendError ?_ _
            have hword : Opens (text "item dropped! id=") := opens_of_head rfl (by decide)
            exact (((hword.append _).append _).append _).unlisted
      · exact listFree_done

/-- The commands on a friend ask the database and reply. -/
theorem listFree_handleFriendAdd (iss : List UInt8) :
    ListFree msg (handleFriendAdd msg.sessionId iss : Handler double Unit) := by
  unfold handleFriendAdd
  simp only
  split
  · exact listFree_sendError (by decide) _
  · refine listFree_call (fun _ => trivial) fun userId =>
      listFree_call (fun _ => trivial) fun done => ?_
    rcases done with _ | _ | _
    · exact listFree_sendError (by decide) _
    · exact listFree_sendError (by decide : Unlisted (text "add failed")) _
    · have hword : Opens (text "friend request sent: ") := opens_of_head rfl (by decide)
      exact listFree_sendError (hword.append _).unlisted _

theorem listFree_handleFriendReject (iss : List UInt8) :
    ListFree msg (handleFriendReject msg.sessionId iss : Handler double Unit) := by
  unfold handleFriendReject
  simp only
  split
  · exact listFree_sendError (by decide) _
  · refine listFree_call (fun _ => trivial) fun userId =>
      listFree_call (fun _ => trivial) fun done => ?_
    rcases done with _ | _ | _
    · exact listFree_sendError (by decide) _
    · exact listFree_sendError (by decide : Unlisted (text "Reject failed")) _
    · have hword : Opens (text "friend request sent: ") := opens_of_head rfl (by decide)
      exact listFree_sendError (hword.append _).unlisted _

theorem listFree_handleFriendAccept (iss : List UInt8) :
    ListFree msg (handleFriendAccept msg.sessionId iss : Handler double Unit) := by
  unfold handleFriendAccept
  simp only
  split
  · exact listFree_sendError (by decide) _
  · refine listFree_call (fun _ => trivial) fun userId =>
      listFree_call (fun _ => trivial) fun friend => ?_
    rcases friend with _ | _ | friendId
    · exact listFree_sendError (by decide) _
    · exact listFree_sendError (by decide) _
    · have hword : Opens (text "friend accepted: ") := opens_of_head rfl (by decide)
      exact listFree_call (fun _ => trivial) fun _ => listFree_call (fun _ => trivial) fun _ =>
        listFree_sendError (hword.append _).unlisted _

theorem listFree_handleFriendBlock (iss : List UInt8) :
    ListFree msg (handleFriendBlock msg.sessionId iss : Handler double Unit) := by
  unfold handleFriendBlock
  simp only
  split
  · exact listFree_sendError (by decide) _
  · refine listFree_call (fun _ => trivial) fun userId =>
      listFree_call (fun _ => trivial) fun friend => ?_
    rcases friend with _ | _ | friendId
    · exact listFree_sendError (by decide) _
    · exact listFree_sendError (by decide) _
    · have hword : Opens (text "friend blocked: ") := opens_of_head rfl (by decide)
      exact listFree_call (fun _ => trivial) fun _ => listFree_call (fun _ => trivial) fun _ =>
        listFree_sendError (hword.append _).unlisted _

/-- The one handler that sends a friend list. -/
theorem lists_handleFriendList (log : Log double) (iss : List UInt8) :
    Lists msg log (handleFriendList msg.sessionId iss : Handler double Unit) := by
  unfold handleFriendList
  split
  · exact listFree_sendError (by decide) _ log
  · refine ⟨trivial, fun userId => ⟨trivial, fun answer => ?_⟩⟩
    cases answer with
    | none => exact listFree_sendError (by decide) _ _
    | some list =>
        refine ⟨Or.inr (Or.inr ⟨rfl, userId, list, ?_, ?_, rfl⟩), fun _ => trivial⟩
        · exact List.mem_cons_of_mem _ List.mem_cons_self
        · exact List.mem_cons_self

theorem listFree_handleFriendBroadcast (t : List UInt8) :
    ListFree msg (handleFriendBroadcast msg.sessionId t : Handler double Unit) := by
  unfold handleFriendBroadcast
  split
  · exact listFree_sendError (by decide) _
  · exact listFree_call (fun _ => trivial) fun userId =>
      listFree_call (fun _ => ⟨_, rfl⟩) fun _ =>
        listFree_call (fun _ => Or.inr (Or.inl ⟨_, rfl⟩)) fun _ => listFree_done

theorem lists_handleFriend (log : Log double) (iss : List UInt8) :
    Lists msg log (handleFriend msg.sessionId iss : Handler double Unit) := by
  unfold handleFriend
  simp only
  split
  · exact listFree_handleFriendAdd _ log
  split
  · exact listFree_handleFriendAccept _ log
  split
  · exact listFree_handleFriendReject _ log
  split
  · exact listFree_handleFriendBlock _ log
  split
  · exact lists_handleFriendList log _
  · exact listFree_handleFriendBroadcast _ log

theorem listFree_replyEnhance (userId : Nat) (cost : Int) (r : EnhanceResult) :
    ListFree msg (replyEnhance msg.sessionId userId cost r : Handler double Unit) := by
  rcases r with ⟨status, level, power, gold, total⟩
  cases status with
  | noGold =>
      have hword : Opens (text "not enough gold (need ") := opens_of_head rfl (by decide)
      exact listFree_sendError ((hword.append _).append _).unlisted _
  | notOwned => exact listFree_sendError (by decide) _
  | failed =>
      have hword : Opens (text "enhance failed...  +") := opens_of_head rfl (by decide)
      exact listFree_sendError
        (((((hword.append _).append _).append _).append _).append _).unlisted _
  | success =>
      have hword : Opens (text "enhance success!  +") := opens_of_head rfl (by decide)
      exact listFree_call (fun _ => Or.inl ⟨_, (((((((hword.append _).append _).append
        _).append _).append _).append _).append _).unlisted, rfl⟩) fun _ =>
          listFree_call (fun _ => trivial) fun _ => listFree_done

theorem listFree_handleEnhance [One double] (iss : List UInt8) :
    ListFree msg (handleEnhance msg.sessionId iss : Handler double Unit) := by
  unfold handleEnhance
  cases readUint 64 iss with
  | none => exact listFree_sendError (by decide) _
  | some read =>
      refine listFree_call (fun _ => trivial) fun userId =>
        listFree_call (fun _ => trivial) fun found => ?_
      rcases found with _ | _ | item
      · exact listFree_sendError (by decide) _
      · exact listFree_sendError (by decide) _
      · refine listFree_call (fun _ => trivial) fun draw => ?_
        change ListFree msg
          (if decide (draw ≤ enhanceRate item.enhanceLevel) = true then _ else _)
        cases decide (draw ≤ enhanceRate item.enhanceLevel) with
        | false =>
            refine listFree_call (fun _ => trivial) fun reply => ?_
            cases reply with
            | none => exact listFree_sendError (by decide) _
            | some r => exact listFree_replyEnhance _ _ r
        | true =>
            refine listFree_call (fun _ => trivial) fun mult =>
              listFree_call (fun _ => trivial) fun reply => ?_
            cases reply with
            | none => exact listFree_sendError (by decide) _
            | some r => exact listFree_replyEnhance _ _ r

theorem listFree_handleInventory [One double] (iss : List UInt8) :
    ListFree msg (handleInventory msg.sessionId iss : Handler double Unit) := by
  unfold handleInventory
  simp only
  split
  · unfold showInventory
    refine listFree_call (fun _ => trivial) fun userId =>
      listFree_call (fun _ => trivial) fun gold => ?_
    cases gold with
    | none => exact listFree_sendError (by decide) _
    | some gold =>
        refine listFree_call (fun _ => trivial) fun items => ?_
        cases items with
        | none => exact listFree_sendError (by decide) _
        | some items =>
            have hword : Opens (text "gold: ") := opens_of_head rfl (by decide)
            exact listFree_sendError
              (((((hword.append _).append _).append _).append _).append _).unlisted _
  split
  · exact listFree_handleEnhance _
  · exact listFree_sendError (by decide) _

theorem listFree_sendPages {lines : List (List UInt8)} {body : List UInt8}
    (hlines : forall line, line ∈ lines -> Opens line) (hbody : Opens body) :
    ListFree msg (sendPages msg.sessionId lines body : Handler double Unit) := by
  induction lines generalizing body with
  | nil =>
      unfold sendPages
      split
      · exact listFree_done
      · exact listFree_sendError hbody.unlisted _
  | cons line rest ih =>
      have hrest := fun l hl => hlines l (List.mem_cons_of_mem line hl)
      unfold sendPages
      split
      · exact listFree_call (fun _ => Or.inl ⟨body, hbody.unlisted, rfl⟩) fun _ =>
          ih hrest (hlines line List.mem_cons_self)
      · exact ih hrest (hbody.append line)

theorem listFree_handleRanking (iss : List UInt8) :
    ListFree msg (handleRanking msg.sessionId iss : Handler double Unit) := by
  unfold handleRanking
  simp only
  split
  · unfold showRanker
    refine listFree_call (fun _ => trivial) fun topRank => ?_
    change ListFree msg (if topRank.isEmpty = true then _ else _)
    split
    · exact listFree_sendError (by decide) _
    · refine listFree_sendPages ?_ (opens_of_head rfl (by decide))
      intro line hline
      rcases List.mem_mapIdx.mp hline with ⟨i, hi, rfl⟩
      exact (opens_decimal _).append _
  split
  · unfold showMyRank
    refine listFree_call (fun _ => trivial) fun userId =>
      listFree_call (fun _ => trivial) fun rank => ?_
    cases rank with
    | none => exact listFree_sendError (by decide) _
    | some myRank =>
        have hword : Opens (text "-- my rank: ") := opens_of_head rfl (by decide)
        refine listFree_call (fun _ => trivial) fun around =>
          listFree_sendPages ?_ ((hword.append _).append _)
        intro line hline
        rcases List.mem_mapIdx.mp hline with ⟨i, hi, rfl⟩
        split
        · have hmark : Opens (text "> ") := opens_of_head rfl (by decide)
          exact (hmark.append _).append _
        · have hmark : Opens (text "  ") := opens_of_head rfl (by decide)
          exact (hmark.append _).append _
  · exact listFree_sendError (by decide) _

theorem listFree_handleTrade (iss : List UInt8) :
    ListFree msg (handleTrade msg.sessionId iss : Handler double Unit) :=
  listFree_call (fun _ => trivial) fun _ => listFree_call (fun _ => trivial) fun _ => listFree_done

theorem listFree_handleInternal : ListFree msg (handleInternal msg : Handler double Unit) := by
  unfold handleInternal
  split
  · exact listFree_done
  · exact listFree_call (fun _ => trivial) fun _ => listFree_done

/-- The handler of every message lists only what it was answered. -/
theorem lists_handle [One double] (msg : ShardMsg) :
    Lists msg [] (handle msg : Handler double Unit) := by
  unfold handle
  split
  · exact listFree_handleInternal []
  simp only
  split
  · refine ⟨trivial, fun named => ?_⟩
    cases named with
    | false => exact listFree_sendError (by decide) _ _
    | true => exact ⟨Or.inl rfl, fun _ => listFree_rewardChat _⟩
  split
  · exact listFree_handleNick _ []
  refine ⟨trivial, fun named => ?_⟩
  cases named with
  | false => exact listFree_sendError (by decide) _ _
  | true =>
      change Lists msg _ (if _ then _ else _)
      split
      · exact listFree_handleWhisper _ _
      split
      · exact lists_handleFriend _ _
      split
      · exact listFree_handleInventory _ _
      split
      · exact listFree_handleRanking _ _
      split
      · exact listFree_handleTrade _ _
      · trivial

end Handlers

end Consumers
end ContentServer
