import ContentServer.Foundation.Framing

/-!
# Framings that cut encodings

A codec is a framing whose frames are exactly the encodings of the legal values.
A stream is then read in one way only: the parse is the only split of it into
encodings of legal values and a rest that the framing does not cut.
-/

namespace Foundation

/-- A framing together with the encoding that it reads. -/
structure Codec (α β : Type) extends Framing α β where
  encode : β -> List α
  legal : β -> Prop
  next_encode : forall {v} (c : List α), legal v ->
    next (encode v ++ c) = .frame (encode v).length v
  encode_of_next : forall {b size v}, next b = .frame size v ->
    legal v ∧ encode v = b.take size

namespace Codec

variable {α β : Type} (C : Codec α β)

/-- The bytes of a list of values. -/
def spell (vs : List β) : List α :=
  vs.flatMap C.encode

/-- Nothing is lost and nothing is made up by parsing. -/
theorem parse_lossless (b : List α) :
    (forall v, v ∈ (C.parse b).frames -> C.legal v) ∧
      b = C.spell (C.parse b).frames ++ (C.parse b).rest := by
  induction b using Framing.parse.induct C.toFraming with
  | case1 b hmore =>
      rw [Framing.parse_of_more hmore]
      exact ⟨fun v hv => (by cases hv), rfl⟩
  | case2 b hbad =>
      rw [Framing.parse_of_bad hbad]
      exact ⟨fun v hv => (by cases hv), rfl⟩
  | case3 b size value hframe ih =>
      rcases C.encode_of_next hframe with ⟨hlegal, hencode⟩
      rw [Framing.parse_of_frame hframe]
      constructor
      · intro v hv
        rcases List.mem_cons.mp hv with rfl | hv
        · exact hlegal
        · exact ih.left v hv
      · unfold spell
        rw [List.flatMap_cons, hencode, List.append_assoc]
        have htail := ih.right
        unfold spell at htail
        rw [← htail, List.take_append_drop]

/-- Legal values in front of a stream are read off it one by one. -/
theorem parse_spell_append {vs : List β} (c : List α)
    (h : forall v, v ∈ vs -> C.legal v) :
    C.parse (C.spell vs ++ c) =
      ⟨vs ++ (C.parse c).frames, (C.parse c).rest, (C.parse c).bad⟩ := by
  induction vs with
  | nil => rfl
  | cons v rest ih =>
      have hnext := C.next_encode (C.spell rest ++ c) (h v List.mem_cons_self)
      have hsplit : C.spell (v :: rest) ++ c = C.encode v ++ (C.spell rest ++ c) := by
        unfold spell
        rw [List.flatMap_cons, List.append_assoc]
      rw [hsplit, Framing.parse_of_frame hnext, List.drop_left,
        ih fun w hw => h w (List.mem_cons_of_mem v hw)]
      rfl

/-- A rest that the framing does not cut is left as it is. -/
theorem parse_of_uncut {c : List α} {bad : Bool}
    (h : C.next c = if bad then .bad else .more) : C.parse c = ⟨[], c, bad⟩ := by
  cases bad with
  | false => exact Framing.parse_of_more h
  | true => exact Framing.parse_of_bad h

/-- The parse is the only split of a stream into legal values and an uncut rest. -/
theorem parse_eq_iff {b : List α} {vs : List β} {rest : List α} {bad : Bool} :
    C.parse b = ⟨vs, rest, bad⟩ <->
      (forall v, v ∈ vs -> C.legal v) ∧ b = C.spell vs ++ rest ∧
        C.next rest = if bad then .bad else .more := by
  constructor
  · intro h
    have hlossless := C.parse_lossless b
    have hrest := C.next_rest b
    rw [h] at hlossless hrest
    exact ⟨hlossless.left, hlossless.right, hrest⟩
  · intro h
    rcases h with ⟨hlegal, rfl, hrest⟩
    rw [C.parse_spell_append rest hlegal, C.parse_of_uncut hrest, List.append_nil]

/-- A stream that begins with another one begins with its values. -/
theorem frames_initial {a b : List α} (hinitial : a <+: b)
    (hgood : (C.parse b).bad = false) :
    (C.parse a).bad = false ∧ (C.parse a).frames <+: (C.parse b).frames := by
  rcases hinitial with ⟨c, rfl⟩
  have ha : (C.parse a).bad = false := by
    cases hbad : (C.parse a).bad with
    | false => rfl
    | true =>
        rw [Framing.parse_append_of_bad c hbad] at hgood
        cases hgood
  rw [Framing.parse_append c ha]
  exact ⟨ha, List.prefix_append _ _⟩

end Codec

end Foundation
