import ContentServer.Foundation.Text

/-!
# Numbers of a width

A number is printed with its sign and filled with zeros up to a width.  The sign
counts as one of the characters.  Different numbers are printed differently, and
a number between two others is printed no longer than the longer of the two.
-/

namespace Foundation

/-- A number in at least `width` characters. -/
def padded (width : Nat) (z : Int) : List UInt8 :=
  if z < 0 then 45 :: List.leftpad (width - 1) 48 (decimal z.natAbs)
  else List.leftpad width 48 (decimal z.natAbs)

/-!
# Values
-/

theorem digitsValue_leftpad (width : Nat) (b : List UInt8) :
    digitsValue (List.leftpad width 48 b) = digitsValue b := by
  unfold List.leftpad
  induction width - b.length with
  | zero => rfl
  | succ k ih => exact ih

theorem isDigit_of_mem_leftpad {width n : Nat} {c : UInt8}
    (h : c ∈ List.leftpad width 48 (decimal n)) : isDigit c = true := by
  rcases List.mem_append.mp h with hzero | hdigit
  · rw [List.eq_of_mem_replicate hzero]
    rfl
  · exact isDigit_of_mem_decimal n c hdigit

theorem leftpad_ne_sign {width n : Nat} {b : List UInt8} :
    List.leftpad width 48 (decimal n) ≠ 45 :: b := by
  intro h
  have hsign := isDigit_of_mem_leftpad (c := 45) (by rw [h]; exact List.mem_cons_self)
  exact absurd hsign (by decide)

theorem padded_injective (width : Nat) : Function.Injective (padded width) := by
  intro y z h
  unfold padded at h
  by_cases hy : y < 0
  · by_cases hz : z < 0
    · rw [if_pos hy, if_pos hz] at h
      have hvalue := congrArg digitsValue (List.cons.inj h).right
      rw [digitsValue_leftpad, digitsValue_leftpad, digitsValue_decimal,
        digitsValue_decimal] at hvalue
      omega
    · rw [if_pos hy, if_neg hz] at h
      exact absurd h.symm leftpad_ne_sign
  · by_cases hz : z < 0
    · rw [if_neg hy, if_pos hz] at h
      exact absurd h leftpad_ne_sign
    · rw [if_neg hy, if_neg hz] at h
      have hvalue := congrArg digitsValue h
      rw [digitsValue_leftpad, digitsValue_leftpad, digitsValue_decimal,
        digitsValue_decimal] at hvalue
      omega

/-- A printed number has no characters but a sign and digits. -/
theorem mem_padded {width : Nat} {z : Int} {c : UInt8} (h : c ∈ padded width z) :
    c = 45 ∨ isDigit c = true := by
  unfold padded at h
  split at h
  · rcases List.mem_cons.mp h with hsign | hdigit
    · exact Or.inl hsign
    · exact Or.inr (isDigit_of_mem_leftpad hdigit)
  · exact Or.inr (isDigit_of_mem_leftpad h)

/-!
# Lengths
-/

theorem length_decimal_mono {m n : Nat} (h : m ≤ n) :
    (decimal m).length ≤ (decimal n).length := by
  induction n using Nat.strong_induction_on generalizing m with
  | h n ih =>
      by_cases hn : n < 10
      · rw [decimal_of_lt (by omega), decimal_of_lt hn]
        exact Nat.le_refl 1
      · rw [decimal_of_le (Nat.not_lt.mp hn), List.length_append]
        by_cases hm : m < 10
        · rw [decimal_of_lt hm]
          exact Nat.le_add_left 1 _
        · rw [decimal_of_le (Nat.not_lt.mp hm), List.length_append]
          exact Nat.add_le_add_right (ih (n / 10) (by omega) (by omega)) 1

theorem lt_pow_length_decimal (n : Nat) : n < 10 ^ (decimal n).length := by
  induction n using Nat.strong_induction_on with
  | h n ih =>
      by_cases hn : n < 10
      · rw [decimal_of_lt hn]
        exact hn
      · have hdiv := ih (n / 10) (by omega)
        rw [decimal_of_le (Nat.not_lt.mp hn), List.length_append]
        show n < 10 ^ ((decimal (n / 10)).length + 1)
        rw [Nat.pow_succ]
        omega

theorem length_padded_of_neg {width : Nat} {z : Int} (h : z < 0) :
    (padded width z).length = max (width - 1) (decimal z.natAbs).length + 1 := by
  unfold padded
  rw [if_pos h, List.length_cons, List.length_leftpad]

theorem length_padded_of_nonneg {width : Nat} {z : Int} (h : 0 ≤ z) :
    (padded width z).length = max width (decimal z.natAbs).length := by
  unfold padded
  rw [if_neg (Int.not_lt.mpr h), List.length_leftpad]

theorem le_length_padded (width : Nat) (z : Int) : width ≤ (padded width z).length := by
  by_cases hz : z < 0
  · rw [length_padded_of_neg hz]
    omega
  · rw [length_padded_of_nonneg (Int.not_lt.mp hz)]
    exact Nat.le_max_left _ _

/-- Numbers far from zero are long. -/
theorem natAbs_lt_of_length_padded (width : Nat) {k : Nat} {z : Int}
    (h : (padded width z).length ≤ k) : z.natAbs < 10 ^ k := by
  have hdigits : (decimal z.natAbs).length ≤ k := by
    by_cases hz : z < 0
    · rw [length_padded_of_neg hz] at h
      omega
    · rw [length_padded_of_nonneg (Int.not_lt.mp hz)] at h
      omega
  exact (lt_pow_length_decimal z.natAbs).trans_le (Nat.pow_le_pow_right (by decide) hdigits)

/-- The longest of an interval of numbers stands at one of its ends. -/
theorem length_padded_le (width : Nat) {x y z : Int} (hxy : x ≤ y) (hyz : y ≤ z) :
    (padded width y).length ≤ max (padded width x).length (padded width z).length := by
  by_cases hy : y < 0
  · have hdigits := length_decimal_mono (show y.natAbs ≤ x.natAbs by omega)
    rw [length_padded_of_neg hy, length_padded_of_neg (show x < 0 by omega)]
    omega
  · have hdigits := length_decimal_mono (show y.natAbs ≤ z.natAbs by omega)
    rw [length_padded_of_nonneg (Int.not_lt.mp hy),
      length_padded_of_nonneg (show 0 ≤ z by omega)]
    omega

end Foundation
