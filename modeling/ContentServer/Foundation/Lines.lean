import Mathlib

/-!
# Lines

Texts that consist of lines, each ended by a separator; the lines that can be
seen whole in the beginning of such a text; and the trimming of a line at both
ends.
-/

namespace Foundation

variable {alpha : Type}

/-!
# Splitting
-/

/-- Each line followed by the separator. -/
def joinLines (sep : alpha) (lines : List (List alpha)) : List alpha :=
  lines.flatMap (fun line => line ++ [sep])

theorem joinLines_append (sep : alpha) (a b : List (List alpha)) :
    joinLines sep (a ++ b) = joinLines sep a ++ joinLines sep b :=
  List.flatMap_append

theorem joinLines_cons (sep : alpha) (line : List alpha) (rest : List (List alpha)) :
    joinLines sep (line :: rest) = line ++ sep :: joinLines sep rest := by
  show line ++ [sep] ++ joinLines sep rest = _
  rw [List.append_assoc]
  rfl

/-- The lines that end within the first `n` characters. -/
def linesWithin : Nat -> List (List alpha) -> List (List alpha)
  | _, [] => []
  | n, line :: rest =>
      if line.length < n then line :: linesWithin (n - (line.length + 1)) rest
      else []

theorem linesWithin_initial (lines : List (List alpha)) :
    forall n, linesWithin n lines <+: lines := by
  induction lines with
  | nil =>
      intro n
      exact List.prefix_refl _
  | cons line rest ih =>
      intro n
      unfold linesWithin
      split
      · exact (List.prefix_cons_inj line).mpr (ih _)
      · exact List.nil_prefix

theorem length_joinLines_cons (sep : alpha) (line : List alpha)
    (rest : List (List alpha)) :
    (joinLines sep (line :: rest)).length =
      line.length + 1 + (joinLines sep rest).length := by
  rw [joinLines_cons, List.length_append, List.length_cons]
  omega

/-- A text that fits is seen whole. -/
theorem linesWithin_of_fits (sep : alpha) {lines : List (List alpha)} :
    forall {n}, (joinLines sep lines).length ≤ n -> linesWithin n lines = lines := by
  induction lines with
  | nil =>
      intro n _
      rfl
  | cons line rest ih =>
      intro n h
      rw [length_joinLines_cons] at h
      unfold linesWithin
      rw [if_pos (by omega), ih (by omega)]

section Split

variable [DecidableEq alpha] {sep : alpha}

theorem splitOn_joinLines {lines : List (List alpha)}
    (h : forall line, line ∈ lines -> sep ∉ line) :
    (joinLines sep lines).splitOn sep = lines ++ [[]] := by
  induction lines with
  | nil => exact List.splitOn_nil sep
  | cons line rest ih =>
      rw [joinLines_cons, List.splitOn_append_cons_self,
        List.splitOn_eq_singleton (h line List.mem_cons_self),
        ih (fun other hother => h other (List.mem_cons_of_mem line hother))]
      rfl

/-- All lines but the last, possibly cut one of a beginning of the text. -/
theorem dropLast_splitOn_take {lines : List (List alpha)} :
    forall n, (forall line, line ∈ lines -> sep ∉ line) ->
      (((joinLines sep lines).take n).splitOn sep).dropLast = linesWithin n lines := by
  induction lines with
  | nil =>
      intro n _
      have hnil : (joinLines sep ([] : List (List alpha))).take n = [] := List.take_nil
      rw [hnil, List.splitOn_nil]
      rfl
  | cons line rest ih =>
      intro n h
      have hline := h line List.mem_cons_self
      rw [joinLines_cons]
      unfold linesWithin
      by_cases hwithin : line.length < n
      · -- the line and its separator can be seen
        have hcount : n - line.length = n - (line.length + 1) + 1 := by omega
        rw [if_pos hwithin, List.take_append, List.take_of_length_le (Nat.le_of_lt hwithin),
          hcount, List.take_succ_cons, List.splitOn_append_cons_self,
          List.splitOn_eq_singleton hline, List.singleton_append,
          List.dropLast_cons_of_ne_nil (List.splitOn_ne_nil _ _),
          ih _ (fun other hother => h other (List.mem_cons_of_mem line hother))]
      · have hcut : (line ++ sep :: joinLines sep rest).take n = line.take n :=
          List.take_append_of_le_length (Nat.not_lt.mp hwithin)
        rw [if_neg hwithin, hcut,
          List.splitOn_eq_singleton (fun hsep => hline (List.mem_of_mem_take hsep))]
        rfl

end Split

/-!
# Trimming
-/

section Trim

variable [DecidableEq alpha] (marks : List (List alpha))

/-- Drop marks from the front as long as there is one. -/
def trimFront (b : List alpha) : List alpha :=
  match _hfind : marks.find? (fun mark => !mark.isEmpty && mark.isPrefixOf b) with
  | none => b
  | some mark => trimFront (b.drop mark.length)
termination_by b.length
decreasing_by
  have hfound := List.find?_some _hfind
  rw [Bool.and_eq_true, List.isPrefixOf_iff_prefix] at hfound
  have hlength := hfound.right.length_le
  have hpos : mark.length ≠ 0 := by
    intro hzero
    rw [List.length_eq_zero_iff.mp hzero] at hfound
    cases hfound.left
  rw [List.length_drop]
  omega

/-- Drop marks from the end as long as there is one. -/
def trimBack (b : List alpha) : List alpha :=
  (trimFront (marks.map List.reverse) b.reverse).reverse

def trim (b : List alpha) : List alpha :=
  trimBack marks (trimFront marks b)

variable {marks}

theorem trimFront_suffix (b : List alpha) : trimFront marks b <:+ b := by
  induction b using trimFront.induct marks with
  | case1 b hnone =>
      rw [trimFront]
      split
      · exact List.suffix_refl b
      · rename_i hsome
        rw [hnone] at hsome
        cases hsome
  | case2 b mark hsome ih =>
      rw [trimFront]
      split
      · exact List.suffix_refl b
      · rename_i found hfound
        rw [hsome] at hfound
        cases hfound
        exact ih.trans (List.drop_suffix _ _)

/-- No mark is left at the front. -/
theorem not_prefix_trimFront {mark : List alpha} (hmem : mark ∈ marks)
    (hne : mark ≠ []) (b : List alpha) : ¬ mark <+: trimFront marks b := by
  induction b using trimFront.induct marks with
  | case1 b hnone =>
      rw [trimFront]
      split
      · intro hinitial
        have hnot := List.find?_eq_none.mp hnone mark hmem
        rw [Bool.and_eq_true, List.isPrefixOf_iff_prefix] at hnot
        exact hnot ⟨by simpa using hne, hinitial⟩
      · rename_i hsome
        rw [hnone] at hsome
        cases hsome
  | case2 b found hsome ih =>
      rw [trimFront]
      split
      · rename_i hnone
        rw [hnone] at hsome
        cases hsome
      · rename_i found' hfound
        rw [hsome] at hfound
        cases hfound
        exact ih

theorem trimFront_eq_self {b : List alpha}
    (h : forall mark, mark ∈ marks -> mark ≠ [] -> ¬ mark <+: b) :
    trimFront marks b = b := by
  rw [trimFront]
  split
  · rfl
  · rename_i mark hsome
    have hfound := List.find?_some hsome
    rw [Bool.and_eq_true, List.isPrefixOf_iff_prefix] at hfound
    exact absurd hfound.right
      (h mark (List.mem_of_find?_eq_some hsome) (by simpa using hfound.left))

theorem trimBack_initial (b : List alpha) : trimBack marks b <+: b := by
  unfold trimBack
  rw [← List.reverse_suffix, List.reverse_reverse]
  exact trimFront_suffix b.reverse

/-- A trimmed text is not trimmed any further. -/
theorem trim_trim (b : List alpha) : trim marks (trim marks b) = trim marks b := by
  have hfront : trimFront marks (trim marks b) = trim marks b := by
    refine trimFront_eq_self ?_
    intro mark hmem hne hinitial
    exact not_prefix_trimFront hmem hne b (hinitial.trans (trimBack_initial _))
  show trimBack marks (trimFront marks (trim marks b)) = trim marks b
  rw [hfront]
  unfold trim trimBack
  rw [List.reverse_reverse, trimFront_eq_self]
  intro mark hmem hne
  exact not_prefix_trimFront hmem hne _

end Trim

end Foundation
