import ContentServer.Clients.ChatInput
import ContentServer.Foundation.Prompts

/-!
# The keyboard of the chat client

The loop of `run` in the Go client.  Enter indexes the commands that begin with
the line by the number of the selected one, which Up, Down and every edit of the
line keep in range; so the loop is a prompt.
-/

namespace ContentServer
namespace Clients

open Foundation Protocol

/-- The keys that `run` tells apart. -/
inductive Key where
  | escape
  | enter
  | up
  | down
  | backspace
  | rune (r : Char)
  | other

namespace ChatInput

def handleUp (ui : ChatInput) : ChatInput :=
  if ui.showCommandPopup = false then ui
  else if ui.getFilteredCommands.length = 0 then ui
  else
    { ui with selectedCommand :=
        if ui.selectedCommand = 0 then ui.getFilteredCommands.length - 1
        else ui.selectedCommand - 1 }

def handleDown (ui : ChatInput) : ChatInput :=
  if ui.showCommandPopup = false then ui
  else if ui.getFilteredCommands.length = 0 then ui
  else
    { ui with selectedCommand :=
        if ui.selectedCommand + 1 ≥ ui.getFilteredCommands.length then 0
        else ui.selectedCommand + 1 }

def updateCommandPopup (ui : ChatInput) : ChatInput :=
  if ui.input.head? ≠ some '/' then
    { ui with showCommandPopup := false, selectedCommand := 0 }
  else if ui.getFilteredCommands.length = 0 then
    { ui with showCommandPopup := false, selectedCommand := 0 }
  else
    { ui with
      showCommandPopup := true
      selectedCommand :=
        if ui.selectedCommand ≥ ui.getFilteredCommands.length then 0
        else ui.selectedCommand }

/-- `filtered[ui.selectedCommand]` in `handleEnter` is out of range. -/
def EnterPanics (ui : ChatInput) : Prop :=
  ui.input ≠ [] ∧ ui.showCommandPopup = true ∧ ui.getFilteredCommands ≠ [] ∧
    ui.getFilteredCommands.length ≤ ui.selectedCommand

instance (ui : ChatInput) : Decidable ui.EnterPanics :=
  inferInstanceAs (Decidable (_ ∧ _))

/-- One turn of the loop: the state and what is written, or `none` for a panic. -/
def press (ui : ChatInput) : Key -> Option (ChatInput × List (List UInt8))
  | .enter =>
      if ui.EnterPanics then none
      else some (ui.handleEnter.1, ui.handleEnter.2.toList)
  | .up => some (ui.handleUp, [])
  | .down => some (ui.handleDown, [])
  | .backspace =>
      if ui.input.length > 0 then
        some ({ ui with input := ui.input.dropLast }.updateCommandPopup, [])
      else some (ui, [])
  | .rune r => some ({ ui with input := ui.input ++ [r] }.updateCommandPopup, [])
  | .escape | .other => some (ui, [])

/-- The loop of `run` on some events; it ends at Escape. -/
def run (ui : ChatInput) : List Key -> Option (ChatInput × List (List UInt8))
  | [] => some (ui, [])
  | .escape :: _ => some (ui, [])
  | key :: rest =>
      match ui.press key with
      | none => none
      | some (t, packets) => (run t rest).map fun (u, more) => (u, packets ++ more)

end ChatInput

/-- The input line of `main`. -/
def ChatInput.empty : ChatInput where
  input := []
  showCommandPopup := false
  selectedCommand := 0

/-!
# The prompt behind the input line
-/

/-- The names in `commands`, letter by letter. -/
def commandLines : List (List Char) :=
  commandNames.map String.toList

/-- The input line that shows a prompt. -/
def ChatInput.ofPrompt : Prompt commandLines -> ChatInput
  | .typed line _ => ⟨line, false, 0⟩
  | .choosing line _ choice => ⟨line, true, choice⟩

/-- What the keys do at a prompt. -/
def Key.edit : Key -> Option (Prompt.Key Char)
  | .enter => some .enter
  | .up => some .up
  | .down => some .down
  | .backspace => some .erase
  | .rune r => some (.type r)
  | .escape | .other => none

/-- What the keys before Escape do. -/
def edits : List Key -> List (Prompt.Key Char)
  | [] => []
  | .escape :: _ => []
  | key :: rest => key.edit.toList ++ edits rest

/-- The prompt after some keys, and the lines that it submitted. -/
def prompted (keys : List Key) : Prompt commandLines × List (List Char) :=
  Prompt.empty.run (edits keys)

/-- The packet of a line. -/
def linePacket (line : List Char) : List UInt8 :=
  sendPacket (line.flatMap String.utf8EncodeChar)

namespace ChatInput

theorem map_getFilteredCommands (ui : ChatInput) :
    ui.getFilteredCommands.map String.toList = offers commandLines ui.input := by
  unfold getFilteredCommands offers commandLines
  rw [List.filter_map]
  rfl

theorem length_getFilteredCommands (ui : ChatInput) :
    ui.getFilteredCommands.length = (offers commandLines ui.input).length := by
  rw [← map_getFilteredCommands, List.length_map]

/-- All commands begin with a slash. -/
theorem head_of_offers {line : List Char} (hne : line ≠ [])
    (hoffers : offers commandLines line ≠ []) : line.head? = some '/' := by
  rcases List.exists_mem_of_ne_nil _ hoffers with ⟨command, hmem⟩
  rcases mem_offers.mp hmem with ⟨hcommand, hbegins⟩
  have hslash : forall command, command ∈ commandLines -> command.head? = some '/' := by
    decide
  have hhead := hslash command hcommand
  rcases hbegins with ⟨rest, rfl⟩
  cases line with
  | nil => exact absurd rfl hne
  | cons first others => exact hhead

/-- The popup of a new line is that of its prompt. -/
theorem updateCommandPopup_eq (line : List Char) (shown : Bool) (place : Nat) :
    (⟨line, shown, place⟩ : ChatInput).updateCommandPopup =
      ofPrompt (Prompt.edited line place) := by
  unfold updateCommandPopup Prompt.edited
  simp only [length_getFilteredCommands]
  by_cases hline : line = []
  · subst hline
    rfl
  by_cases hoffers : offers commandLines line = []
  · rw [dif_neg hline, dif_pos hoffers]
    simp only [hoffers, List.length_nil, if_true, ite_self]
    rfl
  · have hpos := List.length_pos_of_ne_nil hoffers
    have hhead := head_of_offers hline hoffers
    rw [if_neg (fun h => h hhead), if_neg (Nat.ne_of_gt hpos), dif_neg hline,
      dif_neg hoffers]
    simp only [ofPrompt, ge_iff_le, ← Nat.not_lt, ite_not]

theorem handleUp_ofPrompt (p : Prompt commandLines) :
    (ofPrompt p).handleUp = ofPrompt (p.press .up).1 := by
  cases p with
  | typed line settled => rfl
  | choosing line begun choice =>
      have hpos : (offers commandLines line).length ≠ 0 :=
        Nat.ne_of_gt (Nat.zero_lt_of_lt choice.isLt)
      simp only [handleUp, ofPrompt, length_getFilteredCommands, hpos, Prompt.press,
        Prompt.turn, val_finRotate_symm, if_false, Bool.true_eq_false]

theorem handleDown_ofPrompt (p : Prompt commandLines) :
    (ofPrompt p).handleDown = ofPrompt (p.press .down).1 := by
  cases p with
  | typed line settled => rfl
  | choosing line begun choice =>
      have hpos : (offers commandLines line).length ≠ 0 :=
        Nat.ne_of_gt (Nat.zero_lt_of_lt choice.isLt)
      simp only [handleDown, ofPrompt, length_getFilteredCommands, hpos, Prompt.press,
        Prompt.turn, val_finRotate, if_false, Bool.true_eq_false]

/-- Enter never indexes out of range. -/
theorem not_enterPanics_ofPrompt (p : Prompt commandLines) :
    ¬ (ofPrompt p).EnterPanics := by
  intro h
  cases p with
  | typed line settled => cases h.right.left
  | choosing line begun choice =>
      have hrange := h.right.right.right
      rw [length_getFilteredCommands] at hrange
      exact absurd choice.isLt (Nat.not_lt.mpr hrange)

theorem handleEnter_ofPrompt (p : Prompt commandLines) :
    (ofPrompt p).handleEnter =
      (ofPrompt (p.press .enter).1, (p.press .enter).2.map linePacket) := by
  cases p with
  | typed line settled =>
      by_cases hline : line = []
      · subst hline
        rfl
      · simp [handleEnter, ofPrompt, Prompt.press, Prompt.enter, hline, Prompt.empty,
          linePacket, message]
  | choosing line begun choice =>
      have hchosen : ((ofPrompt (.choosing line begun choice)).getFilteredCommands[
          choice.val]?).map String.toList = some (offers commandLines line)[choice] := by
        rw [← List.getElem?_map, map_getFilteredCommands]
        exact List.getElem?_eq_getElem choice.isLt
      rcases Option.map_eq_some_iff.mp hchosen with ⟨name, hfound, hname⟩
      have hne : (ofPrompt (.choosing line begun choice)).getFilteredCommands ≠ [] := by
        intro hnil
        rw [hnil] at hfound
        cases hfound
      have hselected : (ofPrompt (.choosing line begun choice)).getFilteredCommands[
          (ofPrompt (.choosing line begun choice)).selectedCommand]? = some name := hfound
      unfold handleEnter
      rw [if_neg (show (ofPrompt (.choosing line begun choice)).input ≠ [] from begun),
        if_pos ⟨rfl, hne⟩]
      simp only [hselected]
      show (ChatInput.mk name.toList false 0, none) = _
      rw [hname]
      rfl

theorem input_ofPrompt (p : Prompt commandLines) : (ofPrompt p).input = p.line := by
  cases p with
  | typed line settled => rfl
  | choosing line begun choice => rfl

theorem selectedCommand_ofPrompt (p : Prompt commandLines) :
    (ofPrompt p).selectedCommand = p.place := by
  cases p with
  | typed line settled => rfl
  | choosing line begun choice => rfl

/-- Every key does to the input line what it does to its prompt. -/
theorem press_ofPrompt (p : Prompt commandLines) (key : Key) :
    (ofPrompt p).press key = match key.edit with
      | some edit => some (ofPrompt (p.press edit).1,
          ((p.press edit).2.map linePacket).toList)
      | none => some (ofPrompt p, []) := by
  cases key with
  | enter =>
      simp only [press, not_enterPanics_ofPrompt, if_false, handleEnter_ofPrompt, Key.edit]
  | up => exact congrArg some (congrArg (·, []) (handleUp_ofPrompt p))
  | down => exact congrArg some (congrArg (·, []) (handleDown_ofPrompt p))
  | backspace =>
      by_cases hempty : p.line = []
      · simp [press, Key.edit, Prompt.press, input_ofPrompt, hempty]
      · have hpos := List.length_pos_of_ne_nil hempty
        simp only [press, Key.edit, Prompt.press, input_ofPrompt, hempty, hpos, if_true,
          if_false, updateCommandPopup_eq, selectedCommand_ofPrompt]
        rfl
  | rune r =>
      simp only [press, Key.edit, Prompt.press, input_ofPrompt, updateCommandPopup_eq,
        selectedCommand_ofPrompt]
      rfl
  | escape => rfl
  | other => rfl

theorem run_cons {key : Key} (h : key ≠ .escape) (ui : ChatInput) (rest : List Key) :
    ui.run (key :: rest) = match ui.press key with
      | none => none
      | some (t, packets) =>
          (run t rest).map fun (u, more) => (u, packets ++ more) := by
  cases key with
  | escape => exact absurd rfl h
  | _ => rfl

end ChatInput

theorem edits_cons {key : Key} (h : key ≠ .escape) (rest : List Key) :
    edits (key :: rest) = key.edit.toList ++ edits rest := by
  cases key with
  | escape => exact absurd rfl h
  | _ => rfl

theorem ChatInput.run_ofPrompt (keys : List Key) :
    forall p : Prompt commandLines, (ofPrompt p).run keys =
      some (ofPrompt (p.run (edits keys)).1, (p.run (edits keys)).2.map linePacket) := by
  induction keys with
  | nil => exact fun p => rfl
  | cons key rest ih =>
      intro p
      by_cases hescape : key = .escape
      · subst hescape
        rfl
      rw [run_cons hescape, edits_cons hescape, press_ofPrompt]
      cases hedit : key.edit with
      | none =>
          simp only [ih]
          rfl
      | some edit =>
          simp only [ih, Option.toList_some, List.singleton_append, Prompt.run,
            List.map_append, Option.map_some]
          cases (p.press edit).2 <;> rfl

/--
The loop never panics.  Whatever keys are pressed, the input line shows what is
typed at a prompt with the commands of the client, with its choice selected, and
the packets that were written are those of the lines that the prompt submitted.
-/
theorem keyboard_refines_prompt (keys : List Key) :
    ChatInput.empty.run keys =
      some (ChatInput.ofPrompt (prompted keys).1, (prompted keys).2.map linePacket) :=
  ChatInput.run_ofPrompt keys Prompt.empty

/-- Slash, Down, Enter and Enter send the second command. -/
example : (ChatInput.empty.run [.rune '/', .down, .enter, .enter]).map Prod.snd =
    some [linePacket "/w".toList] := by
  decide

end Clients
end ContentServer
