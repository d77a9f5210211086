import ContentServer.Foundation.Programs

/-!
# Workloads

Jobs wait until somebody starts them.  A started job is a program, and the calls
of a program may order further jobs.  A workload is the collection of all jobs
that wait and of what is left of those that run.

If every job only orders jobs that are below it in a well-founded order, then
every workload comes to its end, whoever does which part of the work first and
however the calls are answered.  There need not be a bound on the number of
steps, because a program may have infinitely many continuations.
-/

namespace Foundation

variable {op : Type} {answer : op -> Type} {job : Type}

/-- A job that waits, or the rest of one that runs. -/
inductive Task {op : Type} (answer : op -> Type) (job : Type) : Type where
  | waiting (j : job)
  | running (rest : Program answer Unit)

/-- What the jobs do, and which jobs an operation orders. -/
structure Workshop {op : Type} (answer : op -> Type) (job : Type) where
  work : job -> Program answer Unit
  orders : op -> List job

/-- A program is not one of its own continuations. -/
theorem Program.next_ne {α : Type} {x : Program answer α} {o : op}
    {next : answer o -> Program answer α} (hx : x = .call o next) (a : answer o) :
    next a ≠ x := by
  induction x generalizing o with
  | done b => cases hx
  | call o' next' ih =>
      cases hx
      intro hsame
      exact ih a hsame a rfl

namespace Workshop

variable (W : Workshop answer job)

/-- The tasks that may take the place of a task in one step. -/
inductive Follows : Task answer job -> Task answer job -> Prop where
  | started (j : job) : Follows (.running (W.work j)) (.waiting j)
  | continued (o : op) (next : answer o -> Program answer Unit) (a : answer o) :
      Follows (.running (next a)) (.running (.call o next))
  | ordered (o : op) (next : answer o -> Program answer Unit) (j : job)
      (placed : j ∈ W.orders o) : Follows (.waiting j) (.running (.call o next))

variable {W}

theorem Follows.ne {t u : Task answer job} (h : W.Follows t u) : t ≠ u := by
  cases h with
  | started j => exact fun hsame => by cases hsame
  | continued o next a =>
      intro hsame
      exact Program.next_ne rfl a (Task.running.inj hsame)
  | ordered o next j placed => exact fun hsame => by cases hsame

instance : Std.Irrefl W.Follows :=
  ⟨fun _ h => h.ne rfl⟩

/-- Programs that only order jobs of a kind. -/
def ordersOnly (W : Workshop answer job) (P : job -> Prop) : Discipline answer Unit where
  record := fun _ _ _ => ()
  allowed := fun _ o => forall j, j ∈ W.orders o -> P j

/-- A program comes to its end if the jobs that it orders do. -/
theorem acc_running {P : job -> Prop} (hP : forall j, P j -> Acc W.Follows (.waiting j))
    {x : Program answer Unit}
    (hx : (W.ordersOnly P).Follows () x (fun _ _ => True)) :
    Acc W.Follows (.running x) := by
  induction x with
  | done a => exact ⟨_, fun t ht => by cases ht⟩
  | call o next ih =>
      refine ⟨_, fun t ht => ?_⟩
      cases ht with
      | continued _ _ a => exact ih a (hx.right a)
      | ordered _ _ j placed => exact hP j (hx.left j placed)

/-- The jobs come to their end if each only orders jobs below it. -/
theorem acc_waiting {r : job -> job -> Prop} (hr : WellFounded r)
    (hwork : forall j,
      (W.ordersOnly fun i => r i j).Follows () (W.work j) (fun _ _ => True))
    (j : job) : Acc W.Follows (.waiting j) := by
  induction j using hr.induction with
  | _ j ih =>
      refine ⟨_, fun t ht => ?_⟩
      cases ht with
      | started => exact acc_running ih (hwork j)

/-- One step of the work: a task gives way to tasks that may follow it. -/
abbrev Works (W : Workshop answer job) :
    Multiset (Task answer job) -> Multiset (Task answer job) -> Prop :=
  Relation.CutExpand W.Follows

/-- A workload comes to its end if each of its tasks does. -/
theorem acc_works {tasks : Multiset (Task answer job)}
    (h : forall t, t ∈ tasks -> Acc W.Follows t) : Acc W.Works tasks :=
  Relation.acc_of_singleton fun t ht => (h t ht).cutExpand

end Workshop

/-!
# Work at several places
-/

/-- What changes at one place changes in the whole. -/
theorem sum_update_place {β : Type} [AddCommMonoid β] {n k : Nat} (hk : k < n)
    (f : Nat -> β) (v : β) :
    (Finset.range n).sum (Function.update f k v) + f k = (Finset.range n).sum f + v := by
  have hmem : k ∈ Finset.range n := Finset.mem_range.mpr hk
  rw [Finset.sum_update_of_mem hmem, Finset.sum_eq_add_sum_sdiff_singleton_of_mem hmem f]
  abel

/-- A machine whose steps lower a measure comes to its end. -/
theorem acc_of_measure {state β : Type} {R : state -> state -> Prop} {I : state -> Prop}
    {lower : β -> β -> Prop} (measure : state -> β)
    (hstep : forall s t, I s -> R t s -> I t ∧ lower (measure t) (measure s))
    {s : state} (hs : I s) (hacc : Acc lower (measure s)) : Acc R s := by
  generalize hb : measure s = b at hacc
  induction hacc generalizing s with
  | intro b _ ih =>
      subst hb
      refine ⟨_, fun t ht => ?_⟩
      rcases hstep s t hs ht with ⟨hI, hlower⟩
      exact ih (measure t) hlower hI rfl

end Foundation
