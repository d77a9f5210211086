import Mathlib

/-!
# Fixed-size memory and cyclic windows

A memory of `n` cells is a function on `Fin n`.  A window reads consecutive
cells, continuing at cell zero after the last one; a linear copy overwrites
cells inside the array.  The laws below say how windows split and which copies
they do not notice.
-/

namespace Foundation

/-- An array of `n` cells. -/
abbrev Memory (n : Nat) (α : Type) : Type :=
  Fin n -> α

namespace Memory

variable {n : Nat} [NeZero n] {α : Type}

/-- The cell `i` places after cell zero, counted around the array. -/
def cell (m : Memory n α) (i : Nat) : α :=
  m ⟨i % n, Nat.mod_lt i (Nat.pos_of_ne_zero (NeZero.ne n))⟩

/-- The `len` cells from `start` on, counted around the array. -/
def window (m : Memory n α) (start len : Nat) : List α :=
  (List.range len).map fun i => m.cell (start + i)

/-- Linear copy of `data` to the cells from `start` on. -/
def copy (m : Memory n α) (start : Nat) (data : List α) : Memory n α :=
  fun j =>
    match data[j.val - start]? with
    | some x => if start ≤ j.val then x else m j
    | none => m j

/-!
# Cells and windows
-/

theorem cell_mod (m : Memory n α) (i : Nat) : m.cell (i % n) = m.cell i := by
  simp [cell]

theorem cell_congr (m : Memory n α) {i j : Nat} (h : i % n = j % n) :
    m.cell i = m.cell j := by
  rw [← cell_mod m i, h, cell_mod]

@[simp] theorem length_window (m : Memory n α) (start len : Nat) :
    (m.window start len).length = len := by
  simp [window]

@[simp] theorem window_zero (m : Memory n α) (start : Nat) :
    m.window start 0 = [] := rfl

theorem getElem_window (m : Memory n α) (start len i : Nat)
    (h : i < (m.window start len).length) :
    (m.window start len)[i] = m.cell (start + i) := by
  simp [window]

theorem window_congr (m : Memory n α) {start start' : Nat} (len : Nat)
    (h : start % n = start' % n) :
    m.window start len = m.window start' len := by
  unfold window
  apply List.map_congr_left
  intro i _
  apply cell_congr
  rw [Nat.add_mod, h, ← Nat.add_mod]

theorem window_add (m : Memory n α) (start a b : Nat) :
    m.window start (a + b) = m.window start a ++ m.window (start + a) b := by
  unfold window
  rw [List.range_add, List.map_append, List.map_map]
  congr 1
  apply List.map_congr_left
  intro i _
  simp [Nat.add_assoc]

theorem take_window (m : Memory n α) (start : Nat) {k len : Nat}
    (h : k ≤ len) : (m.window start len).take k = m.window start k := by
  have hsplit : len = k + (len - k) := by omega
  rw [hsplit, window_add, List.take_left' (length_window m start k)]

theorem drop_window (m : Memory n α) (start : Nat) {k len : Nat}
    (h : k ≤ len) :
    (m.window start len).drop k = m.window (start + k) (len - k) := by
  have hsplit : len = k + (len - k) := by omega
  conv_lhs => rw [hsplit, window_add]
  exact List.drop_left' (length_window m start k)

/-- Windows agree when the two memories agree on the cells they read. -/
theorem window_ext {m m' : Memory n α} {start len : Nat}
    (h : forall i, i < len -> m.cell (start + i) = m'.cell (start + i)) :
    m.window start len = m'.window start len := by
  unfold window
  apply List.map_congr_left
  intro i hi
  exact h i (List.mem_range.mp hi)

/-!
# Linear copies
-/

theorem cell_copy_inside (m : Memory n α) {start i : Nat} {data : List α}
    (hlow : start ≤ i) (hindex : i - start < data.length) (hn : i < n) :
    (m.copy start data).cell i = data[i - start] := by
  have hmod : i % n = i := Nat.mod_eq_of_lt hn
  have hget : data[i - start]? = some data[i - start] :=
    List.getElem?_eq_getElem hindex
  simp [cell, copy, hmod, hget, hlow]

theorem cell_copy_outside (m : Memory n α) {start i : Nat} {data : List α}
    (h : i % n < start ∨ start + data.length ≤ i % n) :
    (m.copy start data).cell i = m.cell i := by
  unfold cell copy
  rcases h with hlow | hhigh
  · have hnot : ¬ start ≤ i % n := by omega
    cases data[i % n - start]? with
    | none => rfl
    | some x => simp [hnot]
  · have hget : data[i % n - start]? = none := by
      apply List.getElem?_eq_none
      omega
    simp [hget]

theorem window_copy_self (m : Memory n α) {start : Nat} {data : List α}
    (h : start + data.length ≤ n) :
    (m.copy start data).window start data.length = data := by
  apply List.ext_getElem (length_window _ _ _)
  intro i hi hdata
  rw [getElem_window, cell_copy_inside m (Nat.le_add_right start i)
    (by omega) (by omega)]
  simp

/-- A linear copy leaves alone every window that misses its cells. -/
theorem window_copy_outside (m : Memory n α) {start len offset : Nat}
    {data : List α}
    (h : forall i, i < len -> (start + i) % n < offset ∨
      offset + data.length ≤ (start + i) % n) :
    (m.copy offset data).window start len = m.window start len :=
  window_ext fun i hi => cell_copy_outside m (h i hi)

/-- Copying around the end of the array: the first part of `data` up to the
last cell, the rest from cell zero on. -/
theorem window_copy_wrapped (m : Memory n α) {start : Nat} {data : List α}
    (hstart : start < n) (hwrap : n - start ≤ data.length)
    (hfits : data.length ≤ n) :
    ((m.copy start (data.take (n - start))).copy 0
      (data.drop (n - start))).window start data.length = data := by
  have htake : (data.take (n - start)).length = n - start := by
    rw [List.length_take]
    omega
  have hdrop : (data.drop (n - start)).length = data.length - (n - start) :=
    List.length_drop
  have hlen : data.length = (n - start) + (data.drop (n - start)).length := by
    omega
  have hzero : (start + (n - start)) % n = 0 % n := by
    rw [Nat.add_sub_of_le (by omega)]
    simp
  have hfirst : ((m.copy start (data.take (n - start))).copy 0
      (data.drop (n - start))).window start (n - start) =
        data.take (n - start) := by
    rw [window_copy_outside]
    · have hself : (m.copy start (data.take (n - start))).window start
          (data.take (n - start)).length = data.take (n - start) :=
        window_copy_self m (by omega)
      rwa [htake] at hself
    · intro i hi
      rw [Nat.mod_eq_of_lt (by omega)]
      omega
  conv_lhs => rw [hlen]
  rw [window_add, hfirst, window_congr _ _ hzero,
    window_copy_self _ (by omega)]
  exact List.take_append_drop _ _

end Memory

end Foundation
