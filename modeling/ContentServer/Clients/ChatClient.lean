import ContentServer.Consumers.Packets
import ContentServer.Foundation.Index

/-!
# The chat client

What the Go client does with a packet: control messages under id zero fill its
table of names, and every other packet is shown as a line of the user that the
table has for its id.  Only the table and the lines are modelled; styles, input
and drawing do not feed back into them.
-/

namespace ContentServer
namespace Clients

open Foundation Protocol

structure ChatUI where
  messages : List (List UInt8)
  names : Table UInt16 (List UInt8)

namespace ChatUI

/-- One entry for each line, without trailing line ends. -/
def appendLines (ui : ChatUI) (raw : List UInt8) : ChatUI :=
  let lines := (raw.rdropWhile (· == 10)).splitOn 10
  { ui with messages := ui.messages ++ lines.map (·.rdropWhile (· == 13)) }

def addMessage (ui : ChatUI) (raw : List UInt8) : ChatUI :=
  ui.appendLines raw

def addChat (ui : ChatUI) (raw : List UInt8) : ChatUI :=
  ui.appendLines raw

def handleControl (ui : ChatUI) (payload : List UInt8) : ChatUI :=
  match splitN 32 3 payload with
  | [kind, idText, name] =>
      if kind = text "NICK" then
        match parseUint idText 16 with
        | some id => { ui with names := ui.names.insert (UInt16.ofNat id) name }
        | none => ui
      else ui.addMessage (text "[SYSTEM] " ++ payload)
  | _ => ui.addMessage (text "[SYSTEM] " ++ payload)

/-- `nameFor`: the nickname of an id, or the id itself. -/
def nameFor (ui : ChatUI) (id : UInt16) : List UInt8 :=
  match ui.names.lookup id with
  | some name => name
  | none => decimal id.toNat

/-- The part of `recvLoop` after a whole packet was read. -/
def showPacket (ui : ChatUI) (id : UInt16) (payload : List UInt8) : ChatUI :=
  if id = 0 then ui.handleControl payload
  else ui.addChat (text "[" ++ ui.nameFor id ++ text "] " ++ payload)

/-- An announced id is entered under its name if it has 16 bits. -/
theorem handleControl_nickLine (ui : ChatUI) {id : Nat} (name : List UInt8)
    (h : id < 65536) :
    ui.handleControl (Consumers.nickLine id name) =
      { ui with names := ui.names.insert (UInt16.ofNat id) name } := by
  have hline : Consumers.nickLine id name =
      text "NICK" ++ 32 :: (decimal id ++ 32 :: name) := by
    have hword : text "NICK " = text "NICK" ++ [32] := by decide
    have hspace : text " " = [32] := by decide
    unfold Consumers.nickLine
    rw [hword, hspace]
    simp only [List.append_assoc, List.cons_append, List.nil_append]
  have hfields : splitN 32 3 (Consumers.nickLine id name) =
      [text "NICK", decimal id, name] := by
    rw [hline, splitN_append 1 _ (by decide),
      splitN_append 0 _ (not_mem_decimal (by decide) id)]
    rfl
  have hparse : parseUint (decimal id) 16 = some id := parseUint_decimal h
  unfold handleControl
  rw [hfields]
  simp only [if_true, hparse]

theorem nameFor_insert (ui : ChatUI) (id : UInt16) (name : List UInt8) :
    { ui with names := ui.names.insert id name }.nameFor id = name := by
  unfold nameFor
  rw [AList.lookup_insert]

end ChatUI

end Clients
end ContentServer
