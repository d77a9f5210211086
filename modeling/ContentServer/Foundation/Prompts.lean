import ContentServer.Foundation.Runs

/-!
# Prompts

A prompt is a line that is being typed, and while the line is the beginning of
some commands, a choice among them.  Enter completes the line to the choice, or
submits it if there is nothing to choose.  The lines that can be submitted are
those that no command begins with, and the commands.
-/

namespace Foundation

variable {α : Type} [DecidableEq α]

/-- The commands that begin with the line. -/
def offers (commands : List (List α)) (line : List α) : List (List α) :=
  commands.filter line.isPrefixOf

theorem mem_offers {commands : List (List α)} {line command : List α} :
    command ∈ offers commands line <-> command ∈ commands ∧ line <+: command := by
  unfold offers
  rw [List.mem_filter, List.isPrefixOf_iff_prefix]

/-- To the next place, and from the last to the first. -/
theorem val_finRotate {n : Nat} (i : Fin n) :
    (finRotate n i).val = if i.val + 1 ≥ n then 0 else i.val + 1 := by
  cases n with
  | zero => exact i.elim0
  | succ n =>
      have hlast : i = Fin.last n <-> i.val + 1 ≥ n + 1 := by
        rw [Fin.ext_iff, Fin.val_last]
        omega
      rw [coe_finRotate]
      simp only [hlast]

/-- To the place before, and from the first to the last. -/
theorem val_finRotate_symm {n : Nat} (i : Fin n) :
    ((finRotate n).symm i).val = if i.val = 0 then n - 1 else i.val - 1 := by
  have hlt := i.isLt
  have hlt' := ((finRotate n).symm i).isLt
  have hback := congrArg Fin.val ((finRotate n).apply_symm_apply i)
  rw [val_finRotate] at hback
  split at hback <;> split <;> omega

/-- A line with nothing to choose, or one of the commands that begin with it. -/
inductive Prompt (commands : List (List α)) where
  | typed (line : List α)
      (settled : line = [] ∨ line ∈ commands ∨ offers commands line = [])
  | choosing (line : List α) (begun : line ≠ [])
      (choice : Fin (offers commands line).length)

namespace Prompt

/-- The keys of a prompt. -/
inductive Key (α : Type) where
  | enter
  | up
  | down
  | erase
  | type (a : α)

variable {commands : List (List α)}

def empty : Prompt commands := .typed [] (Or.inl rfl)

def line : Prompt commands -> List α
  | typed line _ => line
  | choosing line _ _ => line

/-- The place of the choice; it is the first while there is nothing to choose. -/
def place : Prompt commands -> Nat
  | typed _ _ => 0
  | choosing _ _ choice => choice

/-- The prompt of a new line; the choice stays at its place if that still exists. -/
def edited (line : List α) (place : Nat) : Prompt commands :=
  if hline : line = [] then .typed line (Or.inl hline)
  else if hoffers : offers commands line = [] then
    .typed line (Or.inr (Or.inr hoffers))
  else .choosing line hline
    ⟨if place < (offers commands line).length then place else 0, by
      have hpos := List.length_pos_of_ne_nil hoffers
      split <;> assumption⟩

/-- The prompt with the choice moved. -/
def turn (f : (n : Nat) -> Fin n -> Fin n) : Prompt commands -> Prompt commands
  | typed line settled => .typed line settled
  | choosing line begun choice => .choosing line begun (f _ choice)

/-- The prompt after Enter, and the line that is submitted. -/
def enter : Prompt commands -> Prompt commands × Option (List α)
  | typed line settled =>
      if line = [] then (.typed line settled, none) else (empty, some line)
  | choosing line _ choice =>
      (.typed (offers commands line)[choice]
        (Or.inr (Or.inl (mem_offers.mp (List.getElem_mem _)).left)), none)

/-- The next prompt, and the line that is submitted. -/
def press (p : Prompt commands) : Key α -> Prompt commands × Option (List α)
  | .enter => p.enter
  | .up => (p.turn fun n => (finRotate n).symm, none)
  | .down => (p.turn fun n => finRotate n, none)
  | .erase =>
      if p.line = [] then (p, none) else (edited p.line.dropLast p.place, none)
  | .type a => (edited (p.line ++ [a]) p.place, none)

/-- The prompt after some keys, and the lines that were submitted. -/
def run : Prompt commands -> List (Key α) -> Prompt commands × List (List α)
  | p, [] => (p, [])
  | p, key :: rest =>
      (((p.press key).1.run rest).1,
        (p.press key).2.toList ++ ((p.press key).1.run rest).2)

end Prompt
end Foundation
