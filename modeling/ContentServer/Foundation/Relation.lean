import ContentServer.Foundation.Index

/-!
# Statements on tables

The statements that a program sends to a table with a primary key: a selection,
an insertion, an update and a deletion.  The table is a finite map from keys to
rows.  An insertion under a used key fails, unless it is told to do nothing, and
an update fails when one of the new rows cannot be stored.

A program mostly names the key in its `WHERE` clause.  Such a clause holds of at
most one row, and the update rule below says all that the statement can do.
-/

namespace Foundation
namespace Table

variable {key row : Type} [DecidableEq key]

/-- The rows that a `WHERE` clause holds of. -/
def select (t : Table key row) (cond : key -> row -> Bool) :
    List (Sigma fun _ : key => row) :=
  t.entries.filter (fun e => cond e.1 e.2)

def insertRow (t : Table key row) (k : key) (r : row) :
    Option (Table key row) :=
  match t.lookup k with
  | some _ => none
  | none => some (AList.insert k r t)

/-- `INSERT … ON CONFLICT DO NOTHING`, and whether a row was inserted. -/
def insertNew (t : Table key row) (k : key) (r : row) : Table key row × Bool :=
  match t.lookup k with
  | some _ => (t, false)
  | none => (AList.insert k r t, true)

/-- `DELETE … WHERE … RETURNING`. -/
def delete (t : Table key row) (cond : key -> row -> Bool) :
    Table key row × List (Sigma fun _ : key => row) :=
  ({ entries := t.entries.filter (fun e => !cond e.1 e.2)
     nodupKeys := t.nodupKeys.sublist List.filter_sublist },
    t.select cond)

/-- Store the new versions of the rows; the result lists them. -/
def replaceRows (set : row -> Option row) :
    Table key row -> List (Sigma fun _ : key => row) ->
      Option (Table key row × List row)
  | t, [] => some (t, [])
  | t, e :: rest =>
      match set e.2 with
      | none => none
      | some r =>
          match replaceRows set (AList.insert e.1 r t) rest with
          | none => none
          | some (t', rows) => some (t', r :: rows)

/-- `UPDATE … SET … WHERE … RETURNING`. -/
def update (t : Table key row) (cond : key -> row -> Bool)
    (set : row -> Option row) : Option (Table key row × List row) :=
  replaceRows set t (t.select cond)

theorem mem_select {t : Table key row} {cond : key -> row -> Bool}
    {k : key} {r : row} :
    Sigma.mk k r ∈ t.select cond <-> t.lookup k = some r ∧ cond k r = true := by
  unfold select
  rw [List.mem_filter, ← AList.mem_lookup_iff, Option.mem_def]

/-- A column of the selected rows is a key of its own. -/
theorem nodup_map_select {column : Type} (t : Table key row)
    (cond : key -> row -> Bool) (f : (Sigma fun _ : key => row) -> column)
    (h : forall k r k' r', t.lookup k = some r -> cond k r = true ->
      t.lookup k' = some r' -> cond k' r' = true ->
      f (Sigma.mk k r) = f (Sigma.mk k' r') -> k = k') :
    ((t.select cond).map f).Nodup := by
  refine List.Nodup.map_on ?_ (t.nodupKeys.nodup.filter _)
  intro e he e' he' hsame
  rcases e with ⟨k, r⟩
  rcases e' with ⟨k', r'⟩
  rcases mem_select.mp he with ⟨hr, hcond⟩
  rcases mem_select.mp he' with ⟨hr', hcond'⟩
  have hk := h k r k' r' hr hcond hr' hcond' hsame
  subst hk
  cases hr.symm.trans hr'
  rfl

/-- The clause holds of rows under one key only. -/
def OnlyKey (cond : key -> row -> Bool) (k : key) : Prop :=
  forall l r, cond l r = true -> l = k

variable {t : Table key row} {cond : key -> row -> Bool} {k : key}

/-- A clause that names the key finds at most one row. -/
theorem select_onlyKey (hkey : OnlyKey cond k) :
    (t.select cond = [] ∧
      forall r, t.lookup k = some r -> cond k r = false) ∨
    (exists r, t.lookup k = some r ∧ cond k r = true ∧
      t.select cond = [Sigma.mk k r]) := by
  have hnodup : (t.select cond).NodupKeys :=
    t.nodupKeys.sublist List.filter_sublist
  have hmem : forall e, e ∈ t.select cond ->
      t.lookup e.1 = some e.2 ∧ cond e.1 e.2 = true := by
    intro e he
    exact mem_select.mp he
  cases hselect : t.select cond with
  | nil =>
      refine Or.inl ⟨rfl, ?_⟩
      intro r hr
      by_contra htrue
      have hcond : cond k r = true := by simpa using htrue
      have hin := mem_select.mpr ⟨hr, hcond⟩
      rw [hselect] at hin
      cases hin
  | cons e rest =>
      rw [hselect] at hnodup hmem
      rcases e with ⟨l, r⟩
      rcases hmem ⟨l, r⟩ List.mem_cons_self with ⟨hlookup, hcond⟩
      have hl : l = k := hkey l r hcond
      subst hl
      cases rest with
      | nil => exact Or.inr ⟨r, hlookup, hcond, rfl⟩
      | cons e' rest =>
          rcases hmem e' (List.mem_cons_of_mem _ List.mem_cons_self) with
            ⟨_, hcond'⟩
          have hl' : e'.1 = l := hkey e'.1 e'.2 hcond'
          have hfresh := (List.nodupKeys_cons.mp hnodup).left
          exact absurd (by rw [← hl']; exact List.mem_cons_self) hfresh

/-- All that an update of one key can do, in a table that is a part of a store. -/
theorem update_cases {store : Type} (hkey : OnlyKey cond k)
    {set : row -> Option row} (put : Table key row -> store) {s : store}
    {rows : List row}
    (h : ((t.update cond set).map fun done => (put done.1, done.2)) =
      some (s, rows)) :
    (rows = [] ∧ s = put t ∧ forall r, t.lookup k = some r -> cond k r = false) ∨
    (exists r r', t.lookup k = some r ∧ cond k r = true ∧ set r = some r' ∧
      s = put (AList.insert k r' t) ∧ rows = [r']) := by
  unfold update at h
  rcases select_onlyKey (t := t) hkey with ⟨hnil, hnone⟩ | ⟨r, hr, hcond, hone⟩
  · rw [hnil] at h
    cases h
    exact Or.inl ⟨rfl, rfl, hnone⟩
  · rw [hone] at h
    cases hset : set r with
    | none =>
        simp only [replaceRows, hset] at h
        cases h
    | some r' =>
        simp only [replaceRows, hset] at h
        cases h
        exact Or.inr ⟨r, r', hr, hcond, hset, rfl, rfl⟩

/-- A stored row is found under its key, and nothing else changes. -/
theorem lookup_insert_cases (t : Table key row) (k l : key) (r : row) :
    (l = k ∧ (AList.insert k r t).lookup l = some r) ∨
    (l ≠ k ∧ (AList.insert k r t).lookup l = t.lookup l) := by
  by_cases hl : l = k
  · subst hl
    exact Or.inl ⟨rfl, AList.lookup_insert t⟩
  · exact Or.inr ⟨hl, AList.lookup_insert_ne hl⟩

/-- A new version of a row does not change which keys are used. -/
theorem lookup_insert_eq_none {l : key} {old r : row}
    (hold : t.lookup k = some old) :
    (AList.insert k r t).lookup l = none <-> t.lookup l = none := by
  rcases lookup_insert_cases t k l r with ⟨hl, hlookup⟩ | ⟨_, hlookup⟩
  · rw [hlookup, hl, hold]
    simp
  · rw [hlookup]

theorem insertRow_eq_some {t' : Table key row} {r : row}
    (h : t.insertRow k r = some t') :
    t.lookup k = none ∧ t' = AList.insert k r t := by
  unfold insertRow at h
  cases hk : t.lookup k with
  | some old =>
      rw [hk] at h
      cases h
  | none =>
      rw [hk] at h
      cases h
      exact ⟨rfl, rfl⟩

theorem insertNew_of_lookup {r old : row} (h : t.lookup k = some old) :
    t.insertNew k r = (t, false) := by
  unfold insertNew
  rw [h]

theorem insertNew_of_lookup_none {r : row} (h : t.lookup k = none) :
    t.insertNew k r = (AList.insert k r t, true) := by
  unfold insertNew
  rw [h]

/-- A row is left exactly if the clause does not hold of it. -/
theorem lookup_delete_eq_some {l : key} {r : row} :
    (t.delete cond).1.lookup l = some r <->
      t.lookup l = some r ∧ cond l r = false := by
  rw [← Option.mem_def, AList.mem_lookup_iff]
  unfold delete
  rw [List.mem_filter, ← AList.mem_lookup_iff, Option.mem_def]
  simp

theorem lookup_delete_eq_none {l : key} {r : row} (hr : t.lookup l = some r)
    (hcond : cond l r = true) : (t.delete cond).1.lookup l = none := by
  cases hl : (t.delete cond).1.lookup l with
  | none => rfl
  | some left =>
      rcases lookup_delete_eq_some.mp hl with ⟨hleft, hfalse⟩
      cases hr.symm.trans hleft
      rw [hcond] at hfalse
      cases hfalse

/-- Rows that the clause does not hold of stay. -/
theorem lookup_delete_of_not {l : key}
    (h : forall r, t.lookup l = some r -> cond l r = false) :
    (t.delete cond).1.lookup l = t.lookup l := by
  cases hl : t.lookup l with
  | some r => exact lookup_delete_eq_some.mpr ⟨hl, h r hl⟩
  | none =>
      cases hdeleted : (t.delete cond).1.lookup l with
      | none => rfl
      | some r =>
          rw [(lookup_delete_eq_some.mp hdeleted).left] at hl
          cases hl

/-- The rows besides the one under a key. -/
theorem entries_cases (t : Table key row) (k : key) :
    (t.lookup k = none ∧ t.entries.kerase k = t.entries) ∨
    exists old before after, t.lookup k = some old ∧
      t.entries = before ++ ⟨k, old⟩ :: after ∧
      t.entries.kerase k = before ++ after := by
  by_cases hk : k ∈ t.entries.keys
  · rcases List.exists_of_kerase hk with ⟨old, before, after, _, hentries, hkerase⟩
    refine Or.inr ⟨old, before, after, ?_, hentries, hkerase⟩
    rw [← Option.mem_def, AList.mem_lookup_iff, hentries]
    simp
  · exact Or.inl ⟨AList.lookup_eq_none.mpr hk, List.kerase_of_notMem_keys hk⟩

/-- A row that the clause does not hold of, before and after. -/
theorem select_insert_of_not {r : row}
    (hold : forall old, t.lookup k = some old -> cond k old = false)
    (hnew : cond k r = false) :
    Table.select (AList.insert k r t) cond = t.select cond := by
  have hinsert : Table.select (AList.insert k r t) cond =
      (t.entries.kerase k).filter (fun e => cond e.1 e.2) := by
    show List.filter _ (⟨k, r⟩ :: t.entries.kerase k) = _
    rw [List.filter_cons_of_neg (by simp [hnew])]
  rw [hinsert]
  unfold select
  rcases entries_cases t k with ⟨_, hkerase⟩ | ⟨old, before, after, hlookup, hentries, hkerase⟩
  · rw [hkerase]
  · rw [hkerase, hentries, List.filter_append, List.filter_append,
      List.filter_cons_of_neg (by simp [hold old hlookup])]

/-- A sum over the selected rows, when a row changes in other columns. -/
theorem sum_select_insert_same {r old : row} (hold : t.lookup k = some old)
    (hcond : cond k r = cond k old) (value : row -> Int) (hvalue : value r = value old) :
    ((Table.select (AList.insert k r t) cond).map (fun e => value e.2)).sum =
      ((t.select cond).map (fun e => value e.2)).sum := by
  rcases entries_cases t k with ⟨hnone, _⟩ | ⟨found, before, after, hlookup, hentries, hkerase⟩
  · rw [hnone] at hold
    cases hold
  · rw [hold] at hlookup
    cases hlookup
    have hinsert : Table.select (AList.insert k r t) cond =
        (⟨k, r⟩ :: (before ++ after) : List (Sigma fun _ : key => row)).filter
          (fun e => cond e.1 e.2) := by
      rw [← hkerase]
      rfl
    rw [hinsert]
    unfold select
    rw [hentries]
    simp only [List.filter_cons, List.filter_append, hcond]
    cases cond k old with
    | false => simp
    | true =>
        simp only [if_true, List.map_cons, List.map_append, List.sum_cons,
          List.sum_append, hvalue]
        ring

end Table

/-!
# Rows that are read one by one
-/

section Reading

variable {α β γ : Type} {f : α -> Option β}

theorem mem_of_mapM {rows : List α} {answers : List β}
    (h : rows.mapM f = some answers) (b : β) :
    b ∈ answers <-> exists a, a ∈ rows ∧ f a = some b := by
  induction rows generalizing answers with
  | nil =>
      cases h
      simp
  | cons a rows ih =>
      rw [List.mapM_cons] at h
      rcases Option.bind_eq_some_iff.mp h with ⟨first, hfirst, hrest⟩
      rcases Option.bind_eq_some_iff.mp hrest with ⟨others, hothers, hanswers⟩
      cases hanswers
      rw [List.mem_cons, ih hothers]
      constructor
      · intro hb
        rcases hb with heq | ⟨other, hother, hf⟩
        · subst heq
          exact ⟨a, List.mem_cons_self, hfirst⟩
        · exact ⟨other, List.mem_cons_of_mem a hother, hf⟩
      · intro hb
        rcases hb with ⟨other, hother, hf⟩
        rcases List.mem_cons.mp hother with heq | hother
        · subst heq
          rw [hfirst] at hf
          exact Or.inl (Option.some.inj hf).symm
        · exact Or.inr ⟨other, hother, hf⟩

/-- A column that is read as it is. -/
theorem map_of_mapM {rows : List α} {answers : List β}
    (h : rows.mapM f = some answers) (g : β -> γ) (column : α -> γ)
    (hsame : forall a b, f a = some b -> g b = column a) :
    answers.map g = rows.map column := by
  induction rows generalizing answers with
  | nil =>
      cases h
      rfl
  | cons a rows ih =>
      rw [List.mapM_cons] at h
      rcases Option.bind_eq_some_iff.mp h with ⟨first, hfirst, hrest⟩
      rcases Option.bind_eq_some_iff.mp hrest with ⟨others, hothers, hanswers⟩
      cases hanswers
      rw [List.map_cons, List.map_cons, ih hothers, hsame a first hfirst]

end Reading

end Foundation
