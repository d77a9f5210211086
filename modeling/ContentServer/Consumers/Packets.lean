import ContentServer.Foundation.Text
import ContentServer.Protocol.Packet

/-!
# Packets made by the handlers

The texts and packets that the consumers make themselves.  Id zero marks a
message of the server; every other packet carries the id of its sender, which
the call narrows to the 16 bits of the field.
-/

namespace ContentServer
namespace Consumers

open Foundation Protocol

/-- The announcement of `HandleNick`, also sent for each entry of the roster. -/
def nickLine (sessionId : Nat) (name : List UInt8) : List UInt8 :=
  text "NICK " ++ decimal sessionId ++ text " " ++ name

def nickPacket (sessionId : Nat) (name : List UInt8) : Packet :=
  makePacket 0 (nickLine sessionId name)

/-- The packet of `SendError`. -/
def errorPacket (msg : List UInt8) : Packet :=
  makePacket 0 msg

/-- `out` in `HandleWhisper` and `HandleFriendBroadcast`. -/
def senderPacket (senderId : Nat) (msg : List UInt8) : Packet :=
  makePacket (UInt16.ofNat senderId) msg

/-- The names that `HandleNick` accepts. -/
def validName (name : List UInt8) : Bool :=
  !(name.length < 3 || name.length ≥ 10)

theorem validName_length {name : List UInt8} (h : validName name = true) :
    3 ≤ name.length ∧ name.length < 10 := by
  simp only [validName, Bool.not_eq_true', Bool.or_eq_false_iff,
    decide_eq_false_iff_not] at h
  omega

/-- The announcement of a 64-bit id and an accepted name fits into a packet. -/
theorem body_nickPacket {sessionId : Nat} {name : List UInt8}
    (hid : sessionId < 2 ^ 64) (hname : validName name = true) :
    (nickPacket sessionId name).body = nickLine sessionId name := by
  have hlength := (validName_length hname).right
  have hdigits := length_decimal_le 19 sessionId (by omega)
  unfold nickPacket
  rw [body_makePacket, List.take_of_length_le]
  unfold nickLine
  simp only [List.length_append]
  have hword : (text "NICK ").length = 5 ∧ (text " ").length = 1 := by decide
  rw [hword.left, hword.right]
  simp only [MESSAGE_SIZE]
  omega

end Consumers
end ContentServer
