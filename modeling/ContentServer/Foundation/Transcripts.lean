import ContentServer.Foundation.Programs

/-!
# Transcripts

A program whose operations have fixed answers makes one list of calls and comes
to one result.  With answers that are free, its calls and their answers so far
determine what it still has to do.
-/

namespace Foundation

variable {op : Type} {answer : op -> Type} {α β : Type}

namespace Program

/-- The calls of a program, in order, when `answers` answers them. -/
def transcript (answers : (o : op) -> answer o) : Program answer α -> List op
  | done _ => []
  | call o next => o :: (next (answers o)).transcript answers

def result (answers : (o : op) -> answer o) : Program answer α -> α
  | done a => a
  | call o next => (next (answers o)).result answers

theorem transcript_bind (answers : (o : op) -> answer o) (x : Program answer α)
    (f : α -> Program answer β) :
    (x >>= f).transcript answers =
      x.transcript answers ++ (f (x.result answers)).transcript answers := by
  induction x with
  | done a => rfl
  | call o next ih =>
      exact congrArg (o :: ·) (ih (answers o))

/-- After the calls of the log, newest first, the program still has to do `y`. -/
inductive Reaches (x : Program answer α) :
    List (Sigma answer) -> Program answer α -> Prop where
  | start : Reaches x [] x
  | call {log : List (Sigma answer)} {o : op} {next : answer o -> Program answer α}
      (a : answer o) (before : Reaches x log (.call o next)) :
      Reaches x (⟨o, a⟩ :: log) (next a)

namespace Reaches

variable {log : List (Sigma answer)}

theorem call_cases {o : op} {next : answer o -> Program answer α}
    {y : Program answer α} (h : Reaches (.call o next) log y) :
    (log = [] ∧ y = .call o next) ∨
      exists a rest, log = rest ++ [⟨o, a⟩] ∧ Reaches (next a) rest y := by
  induction h with
  | start => exact Or.inl ⟨rfl, rfl⟩
  | call b before ih =>
      right
      rcases ih with ⟨hlog, hsame⟩ | ⟨a, rest, hlog, hreach⟩
      · cases hsame
        exact ⟨b, [], by rw [hlog]; rfl, .start⟩
      · exact ⟨a, ⟨_, b⟩ :: rest, by rw [hlog]; rfl, hreach.call b⟩

/-- The first call of a program that came to its end. -/
theorem first_call {o : op} {next : answer o -> Program answer α} {b : α}
    (h : Reaches (.call o next) log (.done b)) :
    exists a rest, log = rest ++ [⟨o, a⟩] ∧ Reaches (next a) rest (.done b) := by
  rcases h.call_cases with ⟨_, hsame⟩ | hmore
  · cases hsame
  · exact hmore

theorem of_done {a : α} {y : Program answer α} (h : Reaches (.done a) log y) :
    log = [] := by
  induction h with
  | start => rfl
  | call b before ih =>
      rw [ih] at before
      cases before

end Reaches

end Program
end Foundation
