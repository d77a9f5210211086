import ContentServer.Foundation.Noninterference

/-!
# Simulation

One machine simulates another if related states answer an accepted input alike
and stay related.  A whole trace is then a trace of the simulating machine with
the same outputs.  The machine that is simulated may refuse more inputs.
-/

namespace Foundation
namespace Machine

variable {state abstract input output : Type}

/-- Whatever `m` accepts, `n` accepts with the same outputs. -/
def Simulates (n : Machine abstract input output) (m : Machine state input output)
    (R : state -> abstract -> Prop) : Prop :=
  forall s t a s' out, R s t -> m s a = some (s', out) ->
    exists t', n t a = some (t', out) ∧ R s' t'

theorem trace_cons_some {m : Machine state input output} {s u : state} {a : input}
    {rest : List input} {out : List output}
    (h : m.trace s (a :: rest) = some (u, out)) :
    exists t first more, m s a = some (t, first) ∧
      m.trace t rest = some (u, more) ∧ out = first ++ more := by
  unfold trace at h
  rcases Option.bind_eq_some_iff.mp h with ⟨⟨t, first⟩, hstep, hrest⟩
  rcases Option.map_eq_some_iff.mp hrest with ⟨⟨v, more⟩, htrace, heq⟩
  injection heq with hv hout
  subst hv
  exact ⟨t, first, more, hstep, htrace, hout.symm⟩

theorem trace_cons_of_step {m : Machine state input output} {s t u : state}
    {a : input} {rest : List input} {first more : List output}
    (hstep : m s a = some (t, first)) (hrest : m.trace t rest = some (u, more)) :
    m.trace s (a :: rest) = some (u, first ++ more) := by
  unfold trace
  rw [hstep]
  show (m.trace t rest).map _ = _
  rw [hrest]
  rfl

theorem Simulates.trace {n : Machine abstract input output}
    {m : Machine state input output} {R : state -> abstract -> Prop}
    (h : n.Simulates m R) {inputs : List input} {s s' : state} {t : abstract}
    {out : List output} (hR : R s t)
    (hrun : m.trace s inputs = some (s', out)) :
    exists t', n.trace t inputs = some (t', out) ∧ R s' t' := by
  induction inputs generalizing s t out with
  | nil =>
      cases hrun
      exact ⟨t, rfl, hR⟩
  | cons a rest ih =>
      rcases trace_cons_some hrun with ⟨u, first, more, hstep, hrest, rfl⟩
      rcases h s t a u first hR hstep with ⟨v, hstep', hR'⟩
      rcases ih hR' hrest with ⟨t', hrest', hlast⟩
      exact ⟨t', trace_cons_of_step hstep' hrest', hlast⟩

end Machine
end Foundation
