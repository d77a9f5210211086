import Mathlib

/-!
# Greedy framing of a stream

A framing looks at a buffered prefix of a stream and either waits for more,
rejects it, or cuts one frame off its front.  The decision may not change when
more of the stream arrives.  Parsing greedily then commutes with the arrival of
more input, which is what makes an incremental receiver independent of how the
stream was cut into pieces.
-/

namespace Foundation

/-- What a framing says about the bytes buffered so far. -/
inductive Verdict (β : Type) where
  | more
  | bad
  | frame (size : Nat) (value : β)
deriving DecidableEq

/-- A framing: verdicts are stable under appending, frames are nonempty. -/
structure Framing (α β : Type) where
  next : List α -> Verdict β
  frame_pos : forall {b size value}, next b = .frame size value -> 0 < size
  frame_le : forall {b size value}, next b = .frame size value -> size ≤ b.length
  frame_append : forall {b size value} (c : List α),
    next b = .frame size value -> next (b ++ c) = .frame size value
  bad_append : forall {b} (c : List α), next b = .bad -> next (b ++ c) = .bad

/-- The frames cut so far, the bytes left, and whether they were rejected. -/
structure Parsed (α β : Type) where
  frames : List β
  rest : List α
  bad : Bool
deriving DecidableEq

namespace Framing

variable {α β : Type}

/-- Cut frames off the front for as long as the framing yields them. -/
def parse (F : Framing α β) (b : List α) : Parsed α β :=
  match _h : F.next b with
  | .more => ⟨[], b, false⟩
  | .bad => ⟨[], b, true⟩
  | .frame size value =>
      let tail := F.parse (b.drop size)
      ⟨value :: tail.frames, tail.rest, tail.bad⟩
termination_by b.length
decreasing_by
  have hpos := F.frame_pos _h
  have hle := F.frame_le _h
  rw [List.length_drop]
  omega

theorem parse_of_more {F : Framing α β} {b : List α} (h : F.next b = .more) :
    F.parse b = ⟨[], b, false⟩ := by
  rw [parse]
  split <;> rename_i hnext <;> rw [h] at hnext <;> cases hnext

theorem parse_of_bad {F : Framing α β} {b : List α} (h : F.next b = .bad) :
    F.parse b = ⟨[], b, true⟩ := by
  rw [parse]
  split <;> rename_i hnext <;> rw [h] at hnext <;> cases hnext

theorem parse_of_frame {F : Framing α β} {b : List α} {size : Nat} {value : β}
    (h : F.next b = .frame size value) :
    F.parse b =
      ⟨value :: (F.parse (b.drop size)).frames, (F.parse (b.drop size)).rest,
        (F.parse (b.drop size)).bad⟩ := by
  rw [parse]
  split <;> rename_i hnext <;> rw [h] at hnext <;> cases hnext
  rfl

/-- What is left over is a suffix on which the framing does not cut. -/
theorem next_rest (F : Framing α β) (b : List α) :
    F.next (F.parse b).rest = if (F.parse b).bad then .bad else .more := by
  induction b using parse.induct F with
  | case1 b h => simp [parse_of_more h, h]
  | case2 b h => simp [parse_of_bad h, h]
  | case3 b size value h ih =>
      rw [parse_of_frame h]
      exact ih

/-- While nothing was rejected, later input continues from the rest. -/
theorem parse_append {F : Framing α β} {b : List α} (c : List α)
    (h : (F.parse b).bad = false) :
    F.parse (b ++ c) =
      ⟨(F.parse b).frames ++ (F.parse ((F.parse b).rest ++ c)).frames,
        (F.parse ((F.parse b).rest ++ c)).rest,
        (F.parse ((F.parse b).rest ++ c)).bad⟩ := by
  induction b using parse.induct F with
  | case1 b hmore => simp [parse_of_more hmore]
  | case2 b hbad => simp [parse_of_bad hbad] at h
  | case3 b size value hframe ih =>
      rw [parse_of_frame hframe] at h ⊢
      rw [parse_of_frame (F.frame_append c hframe),
        List.drop_append_of_le_length (F.frame_le hframe), ih h]
      rfl

/-- After a rejection, later input changes neither frames nor verdict. -/
theorem parse_append_of_bad {F : Framing α β} {b : List α} (c : List α)
    (h : (F.parse b).bad = true) :
    F.parse (b ++ c) = ⟨(F.parse b).frames, (F.parse b).rest ++ c, true⟩ := by
  induction b using parse.induct F with
  | case1 b hmore => simp [parse_of_more hmore] at h
  | case2 b hbad =>
      rw [parse_of_bad (F.bad_append c hbad), parse_of_bad hbad]
  | case3 b size value hframe ih =>
      rw [parse_of_frame hframe] at h ⊢
      rw [parse_of_frame (F.frame_append c hframe),
        List.drop_append_of_le_length (F.frame_le hframe), ih h]

/-- A prefix of good input is good, and its frames come first. -/
theorem parse_of_prefix {F : Framing α β} {a b : List α} (hab : a <+: b)
    (h : (F.parse b).bad = false) :
    (F.parse a).bad = false ∧ (F.parse a).frames <+: (F.parse b).frames := by
  rcases hab with ⟨c, rfl⟩
  have ha : (F.parse a).bad = false := by
    by_contra hbad
    rw [parse_append_of_bad c (eq_true_of_ne_false hbad)] at h
    cases h
  refine ⟨ha, ?_⟩
  rw [parse_append c ha]
  exact List.prefix_append _ _

end Framing

end Foundation
