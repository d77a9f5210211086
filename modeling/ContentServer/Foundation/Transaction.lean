import Mathlib

/-!
# Database transactions

A transaction works on its own copy of the store, and other transactions see
nothing of it before it commits.  Every statement and the commit itself may
fail, which ends the transaction with an exception; which of them fail is an
input of the run.  A transaction that ends without a commit is rolled back.

The rules take one construct off a transaction at a time, so that what it can do
is read off its text.
-/

namespace Foundation

/-- A transaction in progress. -/
structure Work (store : Type) where
  /-- What remains when the transaction is rolled back. -/
  durable : store
  /-- What its own statements see. -/
  copy : store
  sent : Nat
  committed : Bool

/-- Code that runs inside a transaction; `none` stands for an exception. -/
def Transaction (store α : Type) : Type :=
  (Nat -> Bool) -> Work store -> Option α × Work store

namespace Transaction

variable {store α β : Type}

def pure (a : α) : Transaction store α :=
  fun _ w => (some a, w)

def bind (x : Transaction store α) (f : α -> Transaction store β) :
    Transaction store β :=
  fun faults w =>
    match x faults w with
    | (none, w') => (none, w')
    | (some a, w') => f a faults w'

instance : Monad (Transaction store) where
  pure := pure
  bind := bind

/-- Send a statement. -/
def exec (statement : store -> Option (store × α)) : Transaction store α :=
  fun faults w =>
    let w := { w with sent := w.sent + 1 }
    if faults w.sent then (none, w)
    else
      match statement w.copy with
      | none => (none, w)
      | some (copy, a) => (some a, { w with copy := copy })

def commit : Transaction store Unit :=
  fun faults w =>
    let w := { w with sent := w.sent + 1 }
    if faults w.sent then (none, w)
    else (some (), { w with durable := w.copy, committed := true })

/-- A step of the client that throws on `none`. -/
def expect (value : Option α) : Transaction store α :=
  fun _ w => (value, w)

/-- What a transaction leaves behind. -/
structure Result (store α : Type) where
  reply : Option α
  store : store
  committed : Bool

/-- The same result with the reply in another type. -/
def Result.map (f : α -> β) (out : Result store α) : Result store β :=
  { out with reply := out.reply.map f }

/-- The rest of a transaction from some point on. -/
def finish (x : Transaction store α) (faults : Nat -> Bool) (w : Work store) :
    Result store α :=
  let (reply, w) := x faults w
  { reply := reply, store := w.durable, committed := w.committed }

def run (x : Transaction store α) (faults : Nat -> Bool) (s : store) :
    Result store α :=
  x.finish faults { durable := s, copy := s, sent := 0, committed := false }

/-- The transaction has not committed yet. -/
structure Open (w : Work store) (durable copy : store) : Prop where
  durable : w.durable = durable
  copy : w.copy = copy
  committed : w.committed = false

/-- The transaction has committed. -/
structure Closed (w : Work store) (durable : store) : Prop where
  durable : w.durable = durable
  committed : w.committed = true

variable {faults : Nat -> Bool} {w : Work store} {s copy : store}

theorem run_eq_finish (x : Transaction store α) (faults : Nat -> Bool)
    (s : store) : exists w, Open w s s ∧ x.run faults s = x.finish faults w :=
  ⟨{ durable := s, copy := s, sent := 0, committed := false },
    ⟨rfl, rfl, rfl⟩, rfl⟩

theorem Open.finish_pure (hw : Open w s copy) (a : α) :
    finish (Pure.pure a : Transaction store α) faults w = ⟨some a, s, false⟩ := by
  show Result.mk (some a) w.durable w.committed = _
  rw [hw.durable, hw.committed]

theorem Open.finish_expect_none (hw : Open w s copy)
    {f : α -> Transaction store β} :
    finish (expect none >>= f) faults w = ⟨none, s, false⟩ := by
  show Result.mk none w.durable w.committed = _
  rw [hw.durable, hw.committed]

theorem Closed.finish_expect (hw : Closed w s) (value : Option α) :
    finish (expect value : Transaction store α) faults w = ⟨value, s, true⟩ := by
  show Result.mk value w.durable w.committed = _
  rw [hw.durable, hw.committed]

/-- A statement fails, which rolls the transaction back, or it does its work on
the copy. -/
theorem Open.finish_exec (hw : Open w s copy)
    (statement : store -> Option (store × α)) (f : α -> Transaction store β) :
    finish (exec statement >>= f) faults w = ⟨none, s, false⟩ ∨
    (exists copy' a v, statement copy = some (copy', a) ∧ Open v s copy' ∧
      finish (exec statement >>= f) faults w = finish (f a) faults v) := by
  rcases hw with ⟨hdurable, hcopy, hcommitted⟩
  change finish (bind (exec statement) f) faults w = _ ∨
    exists copy' a v, _ ∧ _ ∧ finish (bind (exec statement) f) faults w = _
  unfold finish bind exec
  simp only
  by_cases hfault : faults (w.sent + 1) = true
  · rw [if_pos hfault]
    left
    simp only [hdurable, hcommitted]
  · rw [if_neg hfault, hcopy]
    cases hstatement : statement copy with
    | none =>
        left
        simp only [hdurable, hcommitted]
    | some result =>
        right
        exact ⟨result.1, result.2,
          { w with sent := w.sent + 1, copy := result.1 },
          rfl, ⟨hdurable, rfl, hcommitted⟩, rfl⟩

/-- The commit fails, which rolls the transaction back, or the copy becomes
durable. -/
theorem Open.finish_commit (hw : Open w s copy)
    (f : Unit -> Transaction store β) :
    finish (commit >>= f) faults w = ⟨none, s, false⟩ ∨
    (exists v, Closed v copy ∧
      finish (commit >>= f) faults w = finish (f ()) faults v) := by
  rcases hw with ⟨hdurable, hcopy, hcommitted⟩
  change finish (bind commit f) faults w = _ ∨
    exists v, _ ∧ finish (bind commit f) faults w = _
  unfold finish bind commit
  simp only
  by_cases hfault : faults (w.sent + 1) = true
  · rw [if_pos hfault]
    left
    simp only [hdurable, hcommitted]
  · rw [if_neg hfault]
    right
    exact ⟨{ w with sent := w.sent + 1, durable := w.copy, committed := true },
      ⟨hcopy, rfl⟩, rfl⟩

/-- None of the first `n` statements fails. -/
def Succeed (faults : Nat -> Bool) (n : Nat) : Prop :=
  forall i, i < n -> faults (i + 1) = false

instance (faults : Nat -> Bool) (n : Nat) : Decidable (Succeed faults n) :=
  inferInstanceAs (Decidable (forall i, i < n -> faults (i + 1) = false))

theorem Succeed.succ {n : Nat} (h : Succeed faults n)
    (hnext : faults (n + 1) = false) : Succeed faults (n + 1) := by
  intro i hi
  by_cases hlast : i = n
  · rw [hlast]
    exact hnext
  · exact h i (by omega)

/-- The transaction has sent `n` statements, which did not fail, and has not
committed yet. -/
structure Sent (faults : Nat -> Bool) (w : Work store) (durable copy : store)
    (n : Nat) : Prop where
  isOpen : Open w durable copy
  sent : w.sent = n
  succeed : Succeed faults n

theorem run_eq_finish_sent (x : Transaction store α) (faults : Nat -> Bool)
    (s : store) :
    exists w, Sent faults w s s 0 ∧ x.run faults s = x.finish faults w :=
  ⟨{ durable := s, copy := s, sent := 0, committed := false },
    ⟨⟨rfl, rfl, rfl⟩, rfl, fun _ hi => absurd hi (Nat.not_lt_zero _)⟩, rfl⟩

/-- The same rule with the reason of a failure. -/
theorem Sent.finish_exec {n : Nat} (hw : Sent faults w s copy n)
    (statement : store -> Option (store × α)) (f : α -> Transaction store β) :
    (finish (exec statement >>= f) faults w = ⟨none, s, false⟩ ∧
      (faults (n + 1) = true ∨ statement copy = none)) ∨
    (exists copy' a v, statement copy = some (copy', a) ∧
      Sent faults v s copy' (n + 1) ∧
      finish (exec statement >>= f) faults w = finish (f a) faults v) := by
  rcases hw with ⟨⟨hdurable, hcopy, hcommitted⟩, hsent, hsucceed⟩
  change (finish (bind (exec statement) f) faults w = _ ∧ _) ∨
    exists copy' a v, _ ∧ _ ∧ finish (bind (exec statement) f) faults w = _
  unfold finish bind exec
  simp only [hsent, hcopy]
  cases hfault : faults (n + 1) with
  | true => exact Or.inl ⟨by simp [hdurable, hcommitted], Or.inl rfl⟩
  | false =>
      cases hstatement : statement copy with
      | none => exact Or.inl ⟨by simp [hdurable, hcommitted], Or.inr rfl⟩
      | some result =>
          exact Or.inr ⟨result.1, result.2,
            { w with sent := n + 1, copy := result.1 }, rfl,
            ⟨⟨hdurable, rfl, hcommitted⟩, rfl, hsucceed.succ hfault⟩,
            by simp [hdurable, hcommitted]⟩

theorem Sent.finish_commit {n : Nat} (hw : Sent faults w s copy n)
    (f : Unit -> Transaction store β) :
    (finish (commit >>= f) faults w = ⟨none, s, false⟩ ∧ faults (n + 1) = true) ∨
    (exists v, Closed v copy ∧ Succeed faults (n + 1) ∧
      finish (commit >>= f) faults w = finish (f ()) faults v) := by
  rcases hw with ⟨⟨hdurable, hcopy, hcommitted⟩, hsent, hsucceed⟩
  change (finish (bind commit f) faults w = _ ∧ _) ∨
    exists v, _ ∧ _ ∧ finish (bind commit f) faults w = _
  unfold finish bind commit
  simp only [hsent, hcopy]
  cases hfault : faults (n + 1) with
  | true => exact Or.inl ⟨by simp [hdurable, hcommitted], rfl⟩
  | false =>
      exact Or.inr ⟨{ w with sent := n + 1, durable := copy, committed := true },
        ⟨rfl, rfl⟩, hsucceed.succ hfault, by simp [hcopy]⟩

/-- One of the first statements failed. -/
theorem not_succeed {n m : Nat} (hfault : faults (n + 1) = true) (hlt : n < m) :
    ¬ Succeed faults m := by
  intro h
  rw [h n hlt] at hfault
  cases hfault

theorem Closed.finish_pure (hw : Closed w s) (a : α) :
    finish (Pure.pure a : Transaction store α) faults w = ⟨some a, s, true⟩ :=
  hw.finish_expect (some a)

/-!
# Invariants
-/

/-- A property of the store that the transaction keeps, committed or not. -/
structure Preserves (I : store -> Prop) (x : Transaction store α) : Prop where
  keeps : forall faults w, I w.durable -> I w.copy ->
    I (x faults w).2.durable ∧ I (x faults w).2.copy

namespace Preserves

variable {I : store -> Prop}

theorem pure (a : α) : Preserves I (Pure.pure a : Transaction store α) :=
  ⟨fun _ _ hdurable hcopy => ⟨hdurable, hcopy⟩⟩

theorem expect (value : Option α) :
    Preserves I (Transaction.expect value : Transaction store α) :=
  ⟨fun _ _ hdurable hcopy => ⟨hdurable, hcopy⟩⟩

theorem bind {x : Transaction store α} {f : α -> Transaction store β}
    (hx : Preserves I x) (hf : forall a, Preserves I (f a)) :
    Preserves I (x >>= f) := by
  constructor
  intro faults w hdurable hcopy
  have hfirst := hx.keeps faults w hdurable hcopy
  change I (Transaction.bind x f faults w).2.durable ∧
    I (Transaction.bind x f faults w).2.copy
  unfold Transaction.bind
  rcases hrun : x faults w with ⟨_ | a, v⟩
  · rw [hrun] at hfirst
    exact hfirst
  · rw [hrun] at hfirst
    exact (hf a).keeps faults v hfirst.left hfirst.right

theorem exec {statement : store -> Option (store × α)}
    (h : forall s s' a, I s -> statement s = some (s', a) -> I s') :
    Preserves I (Transaction.exec statement) := by
  constructor
  intro faults w hdurable hcopy
  unfold Transaction.exec
  simp only
  by_cases hfault : faults (w.sent + 1) = true
  · rw [if_pos hfault]
    exact ⟨hdurable, hcopy⟩
  · rw [if_neg hfault]
    cases hstatement : statement w.copy with
    | none => exact ⟨hdurable, hcopy⟩
    | some result => exact ⟨hdurable, h w.copy _ _ hcopy hstatement⟩

theorem commit : Preserves I (Transaction.commit : Transaction store Unit) := by
  constructor
  intro faults w hdurable hcopy
  unfold Transaction.commit
  simp only
  by_cases hfault : faults (w.sent + 1) = true
  · rw [if_pos hfault]
    exact ⟨hdurable, hcopy⟩
  · rw [if_neg hfault]
    exact ⟨hcopy, hcopy⟩

theorem run {x : Transaction store α} (hx : Preserves I x) {s : store} (hs : I s)
    (faults : Nat -> Bool) : I (x.run faults s).store :=
  (hx.keeps faults _ hs hs).left

end Preserves

end Transaction
end Foundation
