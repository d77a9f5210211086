import Mathlib

/-!
# Packing lines into pages

Lines are appended to a page for as long as they fit; a line that does not fit
begins the next page.  No line is cut, and nothing is lost.
-/

namespace Foundation

variable {α : Type}

/-- The pages of `lines` behind the text `body`. -/
def paginate (limit : Nat) : List (List α) -> List α -> List (List α)
  | [], body => if body.isEmpty then [] else [body]
  | line :: rest, body =>
      if body.length + line.length > limit then body :: paginate limit rest line
      else paginate limit rest (body ++ line)

/-- The pages consist of whole lines, in order. -/
structure Paged (limit : Nat) (lines pages : List (List α)) : Prop where
  whole : exists groups : List (List (List α)),
    groups.flatten = lines ∧ pages = groups.map List.flatten
  notEmpty : forall page, page ∈ pages -> page ≠ []
  length_le : forall page, page ∈ pages -> page.length ≤ limit

/-- Together the pages are the text of the lines. -/
theorem Paged.flatten {limit : Nat} {lines pages : List (List α)}
    (h : Paged limit lines pages) : pages.flatten = lines.flatten := by
  rcases h.whole with ⟨groups, rfl, rfl⟩
  exact List.flatten_flatten.symm

theorem Paged.cons {limit : Nat} {first : List (List α)}
    {lines pages : List (List α)} (h : Paged limit lines pages)
    (hne : first.flatten ≠ []) (hle : first.flatten.length ≤ limit) :
    Paged limit (first ++ lines) (first.flatten :: pages) where
  whole := by
    rcases h.whole with ⟨groups, rfl, rfl⟩
    exact ⟨first :: groups, rfl, rfl⟩
  notEmpty := by
    intro page hpage
    rcases List.mem_cons.mp hpage with rfl | hlater
    · exact hne
    · exact h.notEmpty page hlater
  length_le := by
    intro page hpage
    rcases List.mem_cons.mp hpage with rfl | hlater
    · exact hle
    · exact h.length_le page hlater

theorem paged_nil (limit : Nat) : Paged (α := α) limit [] [] where
  whole := ⟨[], rfl, rfl⟩
  notEmpty := by
    intro page hpage
    cases hpage
  length_le := by
    intro page hpage
    cases hpage

/-- Lines that each fit are packed behind lines that together fit. -/
theorem paged_paginate {limit : Nat} {lines : List (List α)} :
    forall first : List (List α), first.flatten ≠ [] ->
      first.flatten.length ≤ limit ->
      (forall line, line ∈ lines -> line ≠ [] ∧ line.length ≤ limit) ->
      Paged limit (first ++ lines) (paginate limit lines first.flatten) := by
  induction lines with
  | nil =>
      intro first hne hle _
      have hbody : first.flatten.isEmpty = false := by
        rw [List.isEmpty_eq_false_iff]
        exact hne
      unfold paginate
      rw [hbody]
      exact (paged_nil limit).cons hne hle
  | cons line rest ih =>
      intro first hne hle hlines
      have hline := hlines line List.mem_cons_self
      have hrest : forall l, l ∈ rest -> l ≠ [] ∧ l.length ≤ limit := by
        intro l hl
        exact hlines l (List.mem_cons_of_mem line hl)
      have hsingle : [line].flatten = line := List.flatten_singleton
      unfold paginate
      split
      · have hpaged := ih [line] (by rw [hsingle]; exact hline.left)
          (by rw [hsingle]; exact hline.right) hrest
        rw [hsingle] at hpaged
        exact hpaged.cons hne hle
      · rename_i hfits
        have hboth : (first ++ [line]).flatten = first.flatten ++ line := by
          rw [List.flatten_append, hsingle]
        have hpaged := ih (first ++ [line])
          (by rw [hboth]; exact List.append_ne_nil_of_left_ne_nil hne line)
          (by rw [hboth, List.length_append]; exact Nat.not_lt.mp hfits) hrest
        rw [hboth, List.append_assoc] at hpaged
        exact hpaged

end Foundation
