import ContentServer.Consumers.Handlers

/-!
# The price of an enhancement

The price of a level in the arithmetic of the code, and the discipline of the
handlers: they only charge the price of the level that they read last.
-/

namespace ContentServer
namespace Consumers

open Foundation Protocol Registry Storage

/-!
# The arithmetic of the price
-/

theorem wrapInt_of_range {v : Int} (h : -2 ^ 31 ≤ v ∧ v < 2 ^ 31) :
    wrapInt v = v := by
  unfold wrapInt Int.bmod
  simp only
  split <;> omega

theorem toUint64_of_nonneg {v : Int} (h : 0 ≤ v ∧ v < 2 ^ 64) :
    (toUint64 v : Int) = v := by
  unfold toUint64
  omega

/-- The levels whose price fits an `int`. -/
def Priced (level : Int) : Prop :=
  -1 ≤ level ∧ level ≤ 21474835
deriving Decidable

theorem enhanceCost_of_priced {level : Int} (h : Priced level) :
    (toUint64 (enhanceCost level) : Int) = 100 * (level + 1) := by
  rcases h with ⟨hlow, hhigh⟩
  have hnext : wrapInt (level + 1) = level + 1 := wrapInt_of_range (by omega)
  unfold enhanceCost
  rw [hnext, wrapInt_of_range (by omega)]
  exact toUint64_of_nonneg (by omega)

/-!
# The handlers charge the price that they read
-/

variable {double : Type}

/-- The note is the last item that was read, with its level. -/
def pricing : Discipline (@Answer double) (Option (Nat × Int)) where
  record := fun n o =>
    match o with
    | .getItem _ itemId => fun found =>
        match found with
        | some (some item) => some (itemId, item.enhanceLevel)
        | _ => none
    | _ => fun _ => n
  allowed := fun n o =>
    match o with
    | .enhanceItem _ itemId cost _ _ =>
        exists level, n = some (itemId, level) ∧
          cost = toUint64 (enhanceCost level)
    | _ => True

theorem pricing_sendError (sessionId : Nat) (msg : List UInt8) :
    pricing.Admits (sendError sessionId msg : Handler double Unit) :=
  .bind (.ask fun _ => trivial) fun _ => .pure _

theorem pricing_sendPages (senderId : Nat) (lines : List (List UInt8))
    (body : List UInt8) :
    pricing.Admits (sendPages senderId lines body : Handler double Unit) := by
  induction lines generalizing body with
  | nil => exact .ite (.pure _) (pricing_sendError _ _)
  | cons line rest ih =>
      exact .ite (.bind (pricing_sendError _ _) fun _ => ih line) (ih _)

theorem pricing_replyEnhance (senderId userId : Nat) (cost : Int)
    (r : EnhanceResult) :
    pricing.Admits (replyEnhance senderId userId cost r : Handler double Unit) := by
  unfold replyEnhance
  cases r.status with
  | success => exact .bind (pricing_sendError _ _) fun _ => .ask fun _ => trivial
  | failed => exact pricing_sendError _ _
  | notOwned => exact pricing_sendError _ _
  | noGold => exact pricing_sendError _ _

theorem pricing_handleEnhance [One double] (senderId : Nat) (iss : List UInt8) :
    pricing.Admits (handleEnhance senderId iss : Handler double Unit) := by
  unfold handleEnhance
  cases readUint 64 iss with
  | none => exact pricing_sendError _ _
  | some read =>
      refine .bind (.ask fun _ => trivial) fun userId => ⟨fun n => ?_⟩
      refine ⟨trivial, fun found => ?_⟩
      rcases found with _ | _ | item
      · exact (pricing_sendError _ _).follows _
      · exact (pricing_sendError _ _).follows _
      · refine ⟨trivial, fun draw => ?_⟩
        -- Neither draw changes the note, so the price is that of the item.
        change pricing.Follows (some (read.1, item.enhanceLevel))
          (if decide (draw ≤ enhanceRate item.enhanceLevel) = true
            then _ else _) _
        cases decide (draw ≤ enhanceRate item.enhanceLevel) with
        | false =>
            refine ⟨⟨item.enhanceLevel, rfl, rfl⟩, fun reply => ?_⟩
            cases reply with
            | none => exact (pricing_sendError _ _).follows _
            | some r => exact (pricing_replyEnhance _ _ _ r).follows _
        | true =>
            refine ⟨trivial, fun _ =>
              ⟨⟨item.enhanceLevel, rfl, rfl⟩, fun reply => ?_⟩⟩
            cases reply with
            | none => exact (pricing_sendError _ _).follows _
            | some r => exact (pricing_replyEnhance _ _ _ r).follows _

/-- Only `HandleEnhance` charges for anything, so every other call is allowed. -/
theorem pricing_handle [One double] (msg : ShardMsg) :
    pricing.Admits (handle msg : Handler double Unit) := by
  unfold handle handleInternal rewardChat handleNick handleWhisper handleFriend
    handleFriendAdd handleFriendAccept handleFriendReject handleFriendBlock
    handleFriendList handleFriendBroadcast handleInventory showInventory
    handleRanking showRanker showMyRank handleTrade sendPacket
  repeat' first
    | with_reducible exact .pure _
    | with_reducible exact pricing_sendError _ _
    | with_reducible exact pricing_sendPages _ _ _
    | with_reducible exact pricing_handleEnhance _ _
    | with_reducible refine .ite ?_ ?_
    | with_reducible refine .bind (.ask ?_) ?_
    | with_reducible refine .ask ?_
    | exact fun _ => trivial
    | intro _
    | split

end Consumers
end ContentServer
