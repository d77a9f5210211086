import Mathlib

/-!
# Programs that call operations

A program calls operations one at a time and continues with their answers.
Each call is atomic, and between two calls of a program other programs may run,
so a program is the tree of the calls that it may make.

A discipline keeps a note of the answers that a program has had and says which
calls the note allows.  Programs that follow a discipline compose.
-/

namespace Foundation

variable {op : Type} {answer : op -> Type} {note α β : Type}

inductive Program {op : Type} (answer : op -> Type) (α : Type) : Type where
  | done (a : α)
  | call (o : op) (next : answer o -> Program answer α)

namespace Program

def bind : Program answer α -> (α -> Program answer β) -> Program answer β
  | done a, f => f a
  | call o next, f => call o (fun x => (next x).bind f)

instance : Monad (Program answer) where
  pure := done
  bind := bind

/-- Call one operation. -/
def ask (o : op) : Program answer (answer o) :=
  call o done

/-- Some answers lead the program to this call. -/
def Calls (o : op) : Program answer α -> Prop
  | done _ => False
  | call o' next => o' = o ∨ exists x, (next x).Calls o

end Program

/-- How the note changes with an answer, and which calls it allows. -/
structure Discipline {op : Type} (answer : op -> Type) (note : Type) where
  record : note -> (o : op) -> answer o -> note
  allowed : note -> op -> Prop

namespace Discipline

/-- Every call is allowed when it is made; `post` holds at the end. -/
def Follows (d : Discipline answer note) :
    note -> Program answer α -> (note -> α -> Prop) -> Prop
  | n, .done a, post => post n a
  | n, .call o next, post =>
      d.allowed n o ∧ forall x, d.Follows (d.record n o x) (next x) post

variable {d : Discipline answer note} {n : note}

theorem follows_bind {x : Program answer α} {f : α -> Program answer β}
    {post : note -> β -> Prop} :
    d.Follows n (x >>= f) post <->
      d.Follows n x (fun n' a => d.Follows n' (f a) post) := by
  induction x generalizing n with
  | done a => exact Iff.rfl
  | call o next ih =>
      constructor
      · intro h
        exact ⟨h.left, fun x => (ih x).mp (h.right x)⟩
      · intro h
        exact ⟨h.left, fun x => (ih x).mpr (h.right x)⟩

theorem Follows.mono {x : Program answer α} {post post' : note -> α -> Prop}
    (h : d.Follows n x post) (hpost : forall n a, post n a -> post' n a) :
    d.Follows n x post' := by
  induction x generalizing n with
  | done a => exact hpost n a h
  | call o next ih => exact ⟨h.left, fun x => ih x (h.right x)⟩

/-- What one discipline allows, a laxer one with the same notes does as well. -/
theorem Follows.relax {d' : Discipline answer note} {x : Program answer α}
    {post : note -> α -> Prop} (h : d.Follows n x post)
    (hrecord : d'.record = d.record)
    (hallowed : forall n o, d.allowed n o -> d'.allowed n o) : d'.Follows n x post := by
  induction x generalizing n with
  | done a => exact h
  | call o next ih =>
      refine ⟨hallowed n o h.left, fun x => ?_⟩
      rw [hrecord]
      exact ih x (h.right x)

/-- What one discipline allows, another one may allow that notes less. -/
theorem Follows.forget {note' : Type} {d' : Discipline answer note'} (f : note -> note')
    {x : Program answer α} {post : note' -> α -> Prop}
    (h : d.Follows n x (fun n a => post (f n) a))
    (hrecord : forall n o a, d'.record (f n) o a = f (d.record n o a))
    (hallowed : forall n o, d.allowed n o -> d'.allowed (f n) o) :
    d'.Follows (f n) x post := by
  induction x generalizing n with
  | done a => exact h
  | call o next ih =>
      refine ⟨hallowed n o h.left, fun a => ?_⟩
      rw [hrecord]
      exact ih a (h.right a)

/-- The program only makes allowed calls, whatever was noted before it. -/
structure Admits (d : Discipline answer note) (x : Program answer α) : Prop where
  follows : forall n, d.Follows n x (fun _ _ => True)

namespace Admits

theorem pure (a : α) : d.Admits (Pure.pure a) :=
  ⟨fun _ => trivial⟩

theorem ask {o : op} (h : forall n, d.allowed n o) : d.Admits (Program.ask o) :=
  ⟨fun n => ⟨h n, fun _ => trivial⟩⟩

theorem bind {x : Program answer α} {f : α -> Program answer β}
    (hx : d.Admits x) (hf : forall a, d.Admits (f a)) : d.Admits (x >>= f) := by
  constructor
  intro n
  rw [follows_bind]
  exact (hx.follows n).mono (fun n' a _ => (hf a).follows n')

theorem ite {c : Prop} [Decidable c] {x y : Program answer α}
    (hx : d.Admits x) (hy : d.Admits y) : d.Admits (if c then x else y) := by
  by_cases hc : c
  · rw [if_pos hc]
    exact hx
  · rw [if_neg hc]
    exact hy

end Admits
end Discipline
end Foundation
