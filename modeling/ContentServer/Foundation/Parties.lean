import ContentServer.Foundation.Simulation
import ContentServer.Foundation.Workloads

/-!
# Parties

Several parties run the same machine, each from a state of its own, and take
their steps in any order.  If every output is worth what the step takes from the
dues of its party, the outputs of all are worth what has been taken from the
dues of all.
-/

namespace Foundation

variable {party event output : Type}

/-- The first `n` parties; an input says whose it is. -/
def parties (m : Machine party event output) (n : Nat) :
    Machine (Nat -> party) (Nat × event) output :=
  fun s a =>
    if a.1 < n then (m (s a.1) a.2).map fun r => (Function.update s a.1 r.1, r.2) else none

theorem parties_some {m : Machine party event output} {n : Nat} {s t : Nat -> party}
    {a : Nat × event} {out : List output} (h : parties m n s a = some (t, out)) :
    a.1 < n ∧ exists p, m (s a.1) a.2 = some (p, out) ∧ t = Function.update s a.1 p := by
  unfold parties at h
  split at h
  · rename_i hlt
    rcases Option.map_eq_some_iff.mp h with ⟨⟨p, first⟩, hstep, hpair⟩
    cases hpair
    exact ⟨hlt, p, hstep, rfl⟩
  · cases h

section Balance

variable {M : Type} [AddCommGroup M] {m : Machine party event output}
  {worth : output -> M} {due : party -> M}

/-- What a step gives out is worth what it takes from the dues of its party. -/
def Balanced (m : Machine party event output) (worth : output -> M) (due : party -> M) :
    Prop :=
  forall p e q out, m p e = some (q, out) -> (out.map worth).sum + due q = due p

theorem Balanced.step (h : Balanced m worth due) {n : Nat} {s t : Nat -> party}
    {a : Nat × event} {out : List output} (hstep : parties m n s a = some (t, out)) :
    (out.map worth).sum + (Finset.range n).sum (fun i => due (t i)) =
      (Finset.range n).sum fun i => due (s i) := by
  rcases parties_some hstep with ⟨hlt, q, hone, rfl⟩
  have hplace : (fun i => due (Function.update s a.1 q i)) =
      Function.update (fun i => due (s i)) a.1 (due q) := by
    funext i
    by_cases hi : i = a.1
    · subst hi
      rw [Function.update_self, Function.update_self]
    · rw [Function.update_of_ne hi, Function.update_of_ne hi]
  have hsum := sum_update_place hlt (fun i => due (s i)) (due q)
  rw [hplace]
  rw [← h (s a.1) a.2 q out hone, ← add_assoc] at hsum
  rw [add_comm]
  exact add_right_cancel hsum

/-- In every run of the parties, all outputs are worth what all dues have lost. -/
theorem Balanced.trace (h : Balanced m worth due) {n : Nat}
    {inputs : List (Nat × event)} {s t : Nat -> party} {out : List output}
    (htrace : (parties m n).trace s inputs = some (t, out)) :
    (out.map worth).sum + (Finset.range n).sum (fun i => due (t i)) =
      (Finset.range n).sum fun i => due (s i) := by
  induction inputs generalizing s out with
  | nil =>
      cases htrace
      exact zero_add _
  | cons a rest ih =>
      rcases Machine.trace_cons_some htrace with ⟨u, first, more, hstep, hrest, rfl⟩
      rw [List.map_append, List.sum_append, add_assoc, ih hrest]
      exact h.step hstep

end Balance

/-- Several measures with their weights, as one. -/
def weighted (measures : List ((output -> Int) × Int)) (o : output) : Int :=
  (measures.map fun a => a.2 * a.1 o).sum

theorem sum_weighted (measures : List ((output -> Int) × Int)) (out : List output) :
    (out.map (weighted measures)).sum =
      (measures.map fun a => a.2 * (out.map a.1).sum).sum := by
  induction measures with
  | nil =>
      show (out.map fun _ => (0 : Int)).sum = 0
      rw [List.map_const', List.sum_replicate, smul_zero]
  | cons a rest ih =>
      have hsplit : weighted (a :: rest) = fun o => a.2 * a.1 o + weighted rest o := rfl
      rw [hsplit, List.sum_map_add, List.sum_map_mul_left, ih]
      rfl

/-!
# Shared counters
-/

variable {counter : Type} [DecidableEq counter]

/-- The counters after an output that may raise one of them. -/
def raised (raise : output -> Option (counter × Int)) (counters : counter -> Int)
    (o : output) : counter -> Int :=
  match raise o with
  | some (c, delta) => Function.update counters c (counters c + delta)
  | none => counters

/-- What an output adds to a counter. -/
def raises (raise : output -> Option (counter × Int)) (c : counter) (o : output) : Int :=
  match raise o with
  | some (d, delta) => if c = d then delta else 0
  | none => 0

theorem raised_apply (raise : output -> Option (counter × Int)) (counters : counter -> Int)
    (o : output) (c : counter) :
    raised raise counters o c = counters c + raises raise c o := by
  unfold raised raises
  cases raise o with
  | none => exact (add_zero (counters c)).symm
  | some r =>
      by_cases hc : c = r.1
      · subst hc
        simp only [Function.update_self, if_true]
      · simp only [Function.update_of_ne hc, if_neg hc, add_zero]

/-- A counter is the sum of all that was added to it. -/
theorem foldl_raised (raise : output -> Option (counter × Int)) (out : List output) :
    forall (counters : counter -> Int) (c : counter),
      out.foldl (raised raise) counters c =
        counters c + (out.map (raises raise c)).sum := by
  induction out with
  | nil => exact fun counters c => (add_zero (counters c)).symm
  | cons o rest ih =>
      intro counters c
      rw [List.foldl_cons, ih, raised_apply, List.map_cons, List.sum_cons, add_assoc]

end Foundation
