import Mathlib

/-!
# Well-formed UTF-8

A list of bytes is well formed if it spells a list of characters.  Dropping
bytes off the end until the rest is well formed finds the longest well-formed
prefix; of a well-formed text cut anywhere it drops at most three bytes.
-/

namespace Foundation

/-- Well-formed UTF-8, decided by decoding. -/
def utf8Valid (b : List UInt8) : Bool :=
  b.toByteArray.validateUTF8

/-- Drop bytes off the end until the rest is well formed. -/
def trimUtf8 (b : List UInt8) : List UInt8 :=
  if 0 < b.length ∧ utf8Valid b = false then trimUtf8 (b.take (b.length - 1))
  else b
termination_by b.length
decreasing_by
  rw [List.length_take]
  omega

/-!
# Texts as lists of characters
-/

theorem utf8Valid_iff {b : List UInt8} :
    utf8Valid b = true <->
      exists chars : List Char, b = chars.flatMap String.utf8EncodeChar := by
  unfold utf8Valid
  rw [ByteArray.validateUTF8_eq_true_iff]
  constructor
  · intro h
    rcases h with ⟨chars, hchars⟩
    exact ⟨chars, List.toByteArray_inj.mp hchars⟩
  · intro h
    rcases h with ⟨chars, rfl⟩
    exact ⟨chars, rfl⟩

theorem utf8Valid_flatMap (chars : List Char) :
    utf8Valid (chars.flatMap String.utf8EncodeChar) = true :=
  utf8Valid_iff.mpr ⟨chars, rfl⟩

@[simp] theorem utf8Valid_nil : utf8Valid [] = true :=
  utf8Valid_flatMap []

/-- A cut of the spelling of `chars` goes through at most one character. -/
theorem exists_chars_prefix (chars : List Char) :
    forall limit, exists kept : List Char, kept <+: chars ∧
      (kept.flatMap String.utf8EncodeChar).length ≤ limit ∧
      min (chars.flatMap String.utf8EncodeChar).length limit ≤
        (kept.flatMap String.utf8EncodeChar).length + 3 := by
  induction chars with
  | nil =>
      intro limit
      exists []
      simp
  | cons c rest ih =>
      intro limit
      have hfour : (String.utf8EncodeChar c).length ≤ 4 := by
        rw [String.length_utf8EncodeChar]
        exact c.utf8Size_le_four
      by_cases hfits : (String.utf8EncodeChar c).length ≤ limit
      · rcases ih (limit - (String.utf8EncodeChar c).length) with
          ⟨kept, hinitial, hle, hmin⟩
        exists c :: kept
        rw [List.flatMap_cons, List.flatMap_cons, List.length_append,
          List.length_append]
        refine ⟨(List.prefix_cons_inj c).mpr hinitial, by omega, by omega⟩
      · exists []
        rw [List.flatMap_nil, List.length_nil]
        exact ⟨List.nil_prefix, by omega, by omega⟩

theorem flatMap_prefix {α β : Type} (f : α -> List β) {kept xs : List α}
    (h : kept <+: xs) : kept.flatMap f <+: xs.flatMap f := by
  rcases h with ⟨rest, rfl⟩
  rw [List.flatMap_append]
  exact List.prefix_append _ _

/-- A well-formed text has a well-formed prefix close to any cut. -/
theorem exists_utf8Valid_prefix {b : List UInt8} (h : utf8Valid b = true)
    (limit : Nat) :
    exists p, p <+: b ∧ utf8Valid p = true ∧ p.length ≤ limit ∧
      min b.length limit ≤ p.length + 3 := by
  rcases utf8Valid_iff.mp h with ⟨chars, rfl⟩
  rcases exists_chars_prefix chars limit with ⟨kept, hinitial, hle, hmin⟩
  exact ⟨_, flatMap_prefix _ hinitial, utf8Valid_flatMap kept, hle, hmin⟩

/-!
# Trimming
-/

theorem trimUtf8_of_invalid {b : List UInt8} (h : utf8Valid b = false) :
    trimUtf8 b = trimUtf8 (b.take (b.length - 1)) := by
  have hne : b ≠ [] := by
    intro hnil
    rw [hnil, utf8Valid_nil] at h
    cases h
  rw [trimUtf8, if_pos ⟨List.length_pos_iff.mpr hne, h⟩]

/-- A proper prefix is one of the text without its last byte. -/
theorem prefix_take_pred {p b : List UInt8} (h : p <+: b) (hne : p ≠ b) :
    p <+: b.take (b.length - 1) := by
  have hlt : p.length < b.length :=
    Nat.lt_of_le_of_ne h.length_le fun hlen => hne (h.eq_of_length hlen)
  exact List.prefix_take_iff.mpr ⟨h, by omega⟩

theorem trimUtf8_initial (b : List UInt8) : trimUtf8 b <+: b := by
  induction b using trimUtf8.induct with
  | case1 b h ih =>
      rw [trimUtf8_of_invalid h.right]
      exact ih.trans (List.take_prefix _ b)
  | case2 b h =>
      rw [trimUtf8, if_neg h]

theorem utf8Valid_trimUtf8 (b : List UInt8) : utf8Valid (trimUtf8 b) = true := by
  induction b using trimUtf8.induct with
  | case1 b h ih =>
      rw [trimUtf8_of_invalid h.right]
      exact ih
  | case2 b h =>
      rw [trimUtf8, if_neg h]
      by_contra hinvalid
      rw [Bool.not_eq_true] at hinvalid
      apply h
      refine ⟨?_, hinvalid⟩
      apply List.length_pos_iff.mpr
      intro hnil
      rw [hnil, utf8Valid_nil] at hinvalid
      cases hinvalid

/-- Trimming stops at the longest well-formed prefix. -/
theorem prefix_trimUtf8 {p : List UInt8} (hvalid : utf8Valid p = true)
    (b : List UInt8) : p <+: b -> p <+: trimUtf8 b := by
  induction b using trimUtf8.induct with
  | case1 b h ih =>
      intro hinitial
      rw [trimUtf8_of_invalid h.right]
      apply ih
      apply prefix_take_pred hinitial
      intro hsame
      rw [hsame, h.right] at hvalid
      cases hvalid
  | case2 b h =>
      intro hinitial
      rw [trimUtf8, if_neg h]
      exact hinitial

end Foundation
