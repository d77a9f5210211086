import Mathlib

/-!
# Noninterference

A machine reads inputs and gives outputs.  An unwinding relates states that no
input tells apart: from related states, inputs that count as the same are both
refused, or they give the same outputs and lead to related states.  Machines
that start in related states then give the same outputs for ever.
-/

namespace Foundation

variable {state input output : Type}

/-- From a state and an input to the next state and outputs; `none` refuses. -/
abbrev Machine (state input output : Type) : Type :=
  state -> input -> Option (state × List output)

namespace Machine

/-- The last state and all outputs, unless an input is refused. -/
def trace (m : Machine state input output) :
    state -> List input -> Option (state × List output)
  | s, [] => some (s, [])
  | s, a :: rest =>
      (m s a).bind fun first =>
        (trace m first.1 rest).map fun more => (more.1, first.2 ++ more.2)

/-- Both refuse, or the outputs are the same and the states related. -/
def Indistinct (R : state -> state -> Prop) :
    Option (state × List output) -> Option (state × List output) -> Prop :=
  Option.Rel fun p q => R p.1 q.1 ∧ p.2 = q.2

namespace Indistinct

variable {R : state -> state -> Prop} {x y : Option (state × List output)}

theorem outputs (h : Indistinct R x y) : x.map Prod.snd = y.map Prod.snd := by
  cases h with
  | some hsame => exact congrArg some hsame.right
  | none => rfl

theorem bind (h : Indistinct R x y)
    {f g : state × List output -> Option (state × List output)}
    (hnext : forall p q : state × List output, R p.1 q.1 -> p.2 = q.2 ->
      Indistinct R (f p) (g q)) : Indistinct R (x.bind f) (y.bind g) := by
  cases h with
  | some hsame => exact hnext _ _ hsame.left hsame.right
  | none => exact .none

theorem prepend (h : Indistinct R x y) (out : List output) :
    Indistinct R (x.map fun more => (more.1, out ++ more.2))
      (y.map fun more => (more.1, out ++ more.2)) := by
  cases h with
  | some hsame => exact .some ⟨hsame.left, congrArg (out ++ ·) hsame.right⟩
  | none => exact .none

end Indistinct

/-- Related states go on alike. -/
def Unwinds (m : Machine state input output) (R : state -> state -> Prop)
    (same : input -> input -> Prop) : Prop :=
  forall s t a b, R s t -> same a b -> Indistinct R (m s a) (m t b)

theorem Unwinds.trace {m : Machine state input output} {R : state -> state -> Prop}
    {same : input -> input -> Prop} (h : m.Unwinds R same) {as bs : List input}
    (hinputs : List.Forall₂ same as bs) {s t : state} (hR : R s t) :
    Indistinct R (m.trace s as) (m.trace t bs) := by
  induction hinputs generalizing s t with
  | nil => exact .some ⟨hR, rfl⟩
  | @cons a b as bs hab _ ih =>
      refine (h s t a b hR hab).bind ?_
      intro p q hnext hout
      rw [hout]
      exact (ih hnext).prepend q.2

end Machine
end Foundation
