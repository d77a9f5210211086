import Mathlib

/-!
# Runs of labelled machines

A machine is a partial step function: given a state and a label it either
refuses the label or produces the next state.  All the nondeterminism of a
modelled system (scheduling, failures, inputs) lives in the labels, so a run is
a list of labels and is replayed by folding the step function over it.

This module collects the facts that every later development of runs needs:
composition, the invariant rule, the states a run visits, and the rule that
turns a one-step equivalence into an equivalence for whole runs.
-/

namespace Foundation

variable {state label : Type}

/-- One labelled step; `none` means that the label is not enabled. -/
abbrev StepFunction (state label : Type) : Type :=
  state -> label -> Option state

/-- Replay a list of labels from a state. -/
def runFrom (step : StepFunction state label) :
    state -> List label -> Option state
  | s, [] => some s
  | s, a :: rest =>
      match step s a with
      | none => none
      | some t => runFrom step t rest

theorem runFrom_cons (step : StepFunction state label) (s : state)
    (a : label) (rest : List label) :
    runFrom step s (a :: rest) =
      match step s a with
      | none => none
      | some t => runFrom step t rest := rfl

theorem runFrom_cons_some
    {step : StepFunction state label} {s u : state} {a : label}
    {rest : List label} (h : runFrom step s (a :: rest) = some u) :
    exists t, step s a = some t ∧ runFrom step t rest = some u := by
  rw [runFrom_cons] at h
  cases hstep : step s a with
  | none =>
      rw [hstep] at h
      cases h
  | some t =>
      rw [hstep] at h
      exact ⟨t, rfl, h⟩

theorem runFrom_cons_of_step
    {step : StepFunction state label} {s t : state} {a : label}
    (rest : List label) (h : step s a = some t) :
    runFrom step s (a :: rest) = runFrom step t rest := by
  rw [runFrom_cons, h]

theorem runFrom_append_of_run
    {step : StepFunction state label} {s t : state}
    {pre : List label} (post : List label)
    (h : runFrom step s pre = some t) :
    runFrom step s (pre ++ post) = runFrom step t post := by
  induction pre generalizing s with
  | nil =>
      cases h
      rfl
  | cons a rest ih =>
      rcases runFrom_cons_some h with ⟨u, hstep, hrest⟩
      rw [List.cons_append, runFrom_cons_of_step _ hstep]
      exact ih hrest

theorem runFrom_append_some
    {step : StepFunction state label} {s u : state}
    {pre post : List label} (h : runFrom step s (pre ++ post) = some u) :
    exists t, runFrom step s pre = some t ∧ runFrom step t post = some u := by
  induction pre generalizing s with
  | nil => exact ⟨s, rfl, h⟩
  | cons a rest ih =>
      rcases runFrom_cons_some h with ⟨t, hstep, hrest⟩
      rcases ih hrest with ⟨v, hv, hpost⟩
      exact ⟨v, by rw [runFrom_cons_of_step _ hstep]; exact hv, hpost⟩

theorem runFrom_snoc_some
    {step : StepFunction state label} {s u : state}
    {pre : List label} {a : label}
    (h : runFrom step s (pre ++ [a]) = some u) :
    exists t, runFrom step s pre = some t ∧ step t a = some u := by
  rcases runFrom_append_some h with ⟨t, hpre, hlast⟩
  rcases runFrom_cons_some hlast with ⟨v, hstep, hnil⟩
  cases hnil
  exact ⟨t, hpre, hstep⟩

theorem runFrom_snoc_of_run
    {step : StepFunction state label} {s t u : state}
    {pre : List label} {a : label}
    (hpre : runFrom step s pre = some t) (hstep : step t a = some u) :
    runFrom step s (pre ++ [a]) = some u := by
  rw [runFrom_append_of_run [a] hpre, runFrom_cons_of_step [] hstep]
  rfl

/-!
# Invariants

An invariant holds at the start and is preserved by every enabled step.
-/

/-- A predicate preserved by every enabled step. -/
def Preserved (step : StepFunction state label) (I : state -> Prop) : Prop :=
  forall s a t, I s -> step s a = some t -> I t

theorem Preserved.run
    {step : StepFunction state label} {I : state -> Prop}
    (hI : Preserved step I) {s t : state} {labels : List label}
    (hs : I s) (hrun : runFrom step s labels = some t) : I t := by
  induction labels generalizing s with
  | nil =>
      cases hrun
      exact hs
  | cons a rest ih =>
      rcases runFrom_cons_some hrun with ⟨u, hstep, hrest⟩
      exact ih (hI s a u hs hstep) hrest

/-- Induction on the labels read so far, for invariants that mention them. -/
theorem run_history
    {step : StepFunction state label} {I : List label -> state -> Prop}
    {s t : state} {labels : List label} (hs : I [] s)
    (hI : forall pre a u v, I pre u -> step u a = some v -> I (pre ++ [a]) v)
    (hrun : runFrom step s labels = some t) : I labels t := by
  induction labels using List.reverseRecOn generalizing t with
  | nil =>
      cases hrun
      exact hs
  | append_singleton pre a ih =>
      rcases runFrom_snoc_some hrun with ⟨u, hpre, hlast⟩
      exact hI pre a u t (ih hpre) hlast

/-!
# Visited states and step conditions

A property of every state that a run visits is settled one step at a time.
The last theorem is the exact form: if from a good state a step leads to a good
state exactly when it meets a condition, then a run stays good exactly when all
of its steps meet the condition.
-/

/-- The run of `labels` from `s` passes through `t`. -/
def Visits (step : StepFunction state label) (s : state)
    (labels : List label) (t : state) : Prop :=
  exists pre post, labels = pre ++ post ∧ runFrom step s pre = some t

/-- Every step of the run meets `cond` in the state before it. -/
def EveryStep (step : StepFunction state label)
    (cond : state -> label -> Prop) : state -> List label -> Prop
  | _, [] => True
  | s, a :: rest =>
      cond s a ∧ forall t, step s a = some t -> EveryStep step cond t rest

/-- The condition of a run is checked by replaying it. -/
instance decidableEveryStep (step : StepFunction state label)
    (cond : state -> label -> Prop) [forall s a, Decidable (cond s a)] :
    (s : state) -> (labels : List label) ->
      Decidable (EveryStep step cond s labels)
  | _, [] => isTrue trivial
  | s, a :: rest =>
      match h : step s a with
      | none => decidable_of_iff (cond s a)
          ⟨fun ha => ⟨ha, fun t ht => by cases h.symm.trans ht⟩, And.left⟩
      | some t =>
          have := decidableEveryStep step cond t rest
          decidable_of_iff (cond s a ∧ EveryStep step cond t rest)
            ⟨fun hboth => ⟨hboth.left, fun u hu => by
                cases h.symm.trans hu
                exact hboth.right⟩,
              fun hevery => ⟨hevery.left, hevery.right t h⟩⟩

theorem visits_start (step : StepFunction state label) (s : state)
    (labels : List label) : Visits step s labels s :=
  ⟨[], labels, rfl, rfl⟩

theorem visits_last
    {step : StepFunction state label} {s t : state} {labels : List label}
    (h : runFrom step s labels = some t) : Visits step s labels t :=
  ⟨labels, [], by simp, h⟩

theorem visits_cons
    {step : StepFunction state label} {s t u : state} {a : label}
    {rest : List label} (hstep : step s a = some t)
    (hu : Visits step t rest u) : Visits step s (a :: rest) u := by
  rcases hu with ⟨pre, post, hsplit, hrun⟩
  refine ⟨a :: pre, post, by rw [hsplit]; rfl, ?_⟩
  rw [runFrom_cons_of_step _ hstep]
  exact hrun

theorem visits_cons_cases
    {step : StepFunction state label} {s u : state} {a : label}
    {rest : List label} (hu : Visits step s (a :: rest) u) :
    u = s ∨ exists t, step s a = some t ∧ Visits step t rest u := by
  rcases hu with ⟨pre, post, hsplit, hrun⟩
  cases pre with
  | nil =>
      cases hrun
      exact Or.inl rfl
  | cons b pre =>
      rw [List.cons_append] at hsplit
      injection hsplit with hab hrest
      subst hab
      rcases runFrom_cons_some hrun with ⟨t, hstep, htail⟩
      exact Or.inr ⟨t, hstep, pre, post, hrest, htail⟩

theorem Visits.append
    {step : StepFunction state label} {s t : state} {pre : List label}
    (ht : Visits step s pre t) (post : List label) :
    Visits step s (pre ++ post) t := by
  rcases ht with ⟨first, later, hsplit, hrun⟩
  refine ⟨first, later ++ post, ?_, hrun⟩
  rw [hsplit, List.append_assoc]

/-- The rest of the run leads from a visited state to the last one. -/
theorem Visits.rest
    {step : StepFunction state label} {s t u : state} {labels : List label}
    (ht : Visits step s labels t) (hrun : runFrom step s labels = some u) :
    exists post, runFrom step t post = some u := by
  rcases ht with ⟨pre, post, hsplit, hpre⟩
  rw [hsplit, runFrom_append_of_run post hpre] at hrun
  exact ⟨post, hrun⟩

theorem Preserved.visits
    {step : StepFunction state label} {I : state -> Prop}
    (hI : Preserved step I) {s t : state} {labels : List label}
    (hs : I s) (ht : Visits step s labels t) : I t := by
  rcases ht with ⟨pre, _post, _hsplit, hrun⟩
  exact hI.run hs hrun

/-- A run stays good when all of its steps meet a sufficient condition. -/
theorem EveryStep.visits
    {step : StepFunction state label} {I P : state -> Prop}
    {cond : state -> label -> Prop} (hI : Preserved step I)
    (hgood : forall s a t, I s -> P s -> step s a = some t -> cond s a -> P t)
    {s : state} {labels : List label} (hs : I s) (hP : P s)
    (hevery : EveryStep step cond s labels) :
    forall t, Visits step s labels t -> P t := by
  induction labels generalizing s with
  | nil =>
      intro t ht
      rcases ht with ⟨pre, post, hsplit, hpre⟩
      have hnil : pre = [] := (List.append_eq_nil_iff.mp hsplit.symm).left
      subst hnil
      cases hpre
      exact hP
  | cons a rest ih =>
      intro t ht
      rcases visits_cons_cases ht with hts | ⟨u, hstep, hvisit⟩
      · rw [hts]
        exact hP
      · have hPu : P u := hgood s a u hs hP hstep hevery.left
        exact ih (hI s a u hs hstep) hPu (hevery.right u hstep) t hvisit

/-- The steps of a run that stays good meet a necessary condition. -/
theorem everyStep_of_visits
    {step : StepFunction state label} {I P : state -> Prop}
    {cond : state -> label -> Prop} (hI : Preserved step I)
    (hneeded : forall s a t, I s -> P s -> step s a = some t -> P t -> cond s a)
    {s u : state} {labels : List label} (hs : I s)
    (hrun : runFrom step s labels = some u)
    (hall : forall t, Visits step s labels t -> P t) :
    EveryStep step cond s labels := by
  induction labels generalizing s with
  | nil => trivial
  | cons a rest ih =>
      rcases runFrom_cons_some hrun with ⟨v, hstep, hrest⟩
      have hPs : P s := hall s (visits_start step s (a :: rest))
      have hPv : P v := hall v (visits_cons hstep (visits_start step v rest))
      refine ⟨hneeded s a v hs hPs hstep hPv, ?_⟩
      intro t ht
      rw [hstep] at ht
      cases ht
      exact ih (hI s a v hs hstep) hrest
        (fun w hw => hall w (visits_cons hstep hw))

/-- The exact condition under which a whole run stays good. -/
theorem visits_iff_everyStep
    {step : StepFunction state label} {I P : state -> Prop}
    {cond : state -> label -> Prop}
    (hI : Preserved step I)
    (hexact : forall s a t, I s -> P s -> step s a = some t ->
      (P t <-> cond s a))
    {s u : state} {labels : List label} (hs : I s) (hP : P s)
    (hrun : runFrom step s labels = some u) :
    (forall t, Visits step s labels t -> P t) <->
      EveryStep step cond s labels := by
  constructor
  · exact everyStep_of_visits hI
      (fun s a t hIs hPs hstep => (hexact s a t hIs hPs hstep).mp) hs hrun
  · exact EveryStep.visits hI
      (fun s a t hIs hPs hstep => (hexact s a t hIs hPs hstep).mpr) hs hP

/-!
# Projections

One machine may be another one with more to its states.  What holds of all runs of the
smaller machine then holds of what can be seen of the larger one.
-/

/-- Every step is a step of the other machine, as far as that one can see. -/
def Projects {shown event : Type} (step : StepFunction state label)
    (other : StepFunction shown event) (view : state -> shown)
    (read : state -> label -> event) : Prop :=
  forall s a t, step s a = some t -> other (view s) (read s a) = some (view t)

section Projections

variable {shown event : Type} {step : StepFunction state label}
  {other : StepFunction shown event} {view : state -> shown}
  {read : state -> label -> event}

theorem Projects.preserved (h : Projects step other view read) {I : shown -> Prop}
    (hI : Preserved other I) : Preserved step (fun s => I (view s)) := by
  intro s a t hs hstep
  exact hI (view s) (read s a) (view t) hs (h s a t hstep)

end Projections

end Foundation
