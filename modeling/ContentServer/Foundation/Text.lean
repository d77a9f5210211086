import Mathlib

/-!
# Decimal numbers and separated fields

Texts are lists of bytes.  A number is printed in decimal without leading
zeros, and read back with a bound on its size.  A text is split at a separator
into a limited number of fields, the last of which keeps further separators.
-/

namespace Foundation

/-- The digit character of a number below ten. -/
def digit (d : Nat) : UInt8 :=
  UInt8.ofNat (48 + d)

/-- A number in decimal. -/
def decimal (n : Nat) : List UInt8 :=
  if n < 10 then [digit n]
  else decimal (n / 10) ++ [digit (n % 10)]

def isDigit (c : UInt8) : Bool :=
  48 ≤ c.toNat && c.toNat ≤ 57

/-- The number that a list of digits spells. -/
def digitsValue (b : List UInt8) : Nat :=
  b.foldl (fun n c => 10 * n + (c.toNat - 48)) 0

/-- Read a number of at most `bits` bits: digits only, at least one. -/
def parseUint (b : List UInt8) (bits : Nat) : Option Nat :=
  if b ≠ [] ∧ b.all isDigit = true ∧ digitsValue b < 2 ^ bits
  then some (digitsValue b)
  else none

/-- Cut at separators into at most `n` fields. -/
def splitN (sep : UInt8) : Nat -> List UInt8 -> List (List UInt8)
  | 0, _ => []
  | 1, b => [b]
  | n + 2, b =>
      match b.span (· ≠ sep) with
      | (field, []) => [field]
      | (field, _ :: rest) => field :: splitN sep (n + 1) rest

/-!
# Decimal round trip
-/

theorem toNat_digit {d : Nat} (h : d < 10) : (digit d).toNat = 48 + d := by
  unfold digit
  rw [UInt8.toNat_ofNat']
  exact Nat.mod_eq_of_lt (by omega)

theorem decimal_of_lt {n : Nat} (h : n < 10) : decimal n = [digit n] := by
  rw [decimal, if_pos h]

theorem decimal_of_le {n : Nat} (h : 10 ≤ n) :
    decimal n = decimal (n / 10) ++ [digit (n % 10)] := by
  rw [decimal, if_neg (Nat.not_lt.mpr h)]

theorem decimal_ne_nil (n : Nat) : decimal n ≠ [] := by
  by_cases h : n < 10
  · rw [decimal_of_lt h]
    exact List.cons_ne_nil _ _
  · rw [decimal_of_le (Nat.not_lt.mp h)]
    exact List.append_ne_nil_of_right_ne_nil _ (List.cons_ne_nil _ _)

theorem isDigit_of_mem_decimal (n : Nat) :
    forall c, c ∈ decimal n -> isDigit c = true := by
  have hdigit : forall d, d < 10 -> isDigit (digit d) = true := by
    intro d hd
    unfold isDigit
    rw [toNat_digit hd]
    simp
    omega
  induction n using Nat.strong_induction_on with
  | h n ih =>
      intro c hc
      by_cases h : n < 10
      · rw [decimal_of_lt h] at hc
        rw [List.mem_singleton.mp hc]
        exact hdigit n h
      · rw [decimal_of_le (Nat.not_lt.mp h)] at hc
        rcases List.mem_append.mp hc with hc | hc
        · exact ih (n / 10) (by omega) c hc
        · rw [List.mem_singleton.mp hc]
          exact hdigit _ (Nat.mod_lt n (by omega))

theorem digitsValue_append_digit (b : List UInt8) {d : Nat} (h : d < 10) :
    digitsValue (b ++ [digit d]) = 10 * digitsValue b + d := by
  unfold digitsValue
  rw [List.foldl_append, List.foldl_cons, List.foldl_nil, toNat_digit h,
    Nat.add_sub_cancel_left]

theorem digitsValue_decimal (n : Nat) : digitsValue (decimal n) = n := by
  induction n using Nat.strong_induction_on with
  | h n ih =>
      by_cases h : n < 10
      · rw [decimal_of_lt h]
        have hsingle := digitsValue_append_digit [] h
        rw [List.nil_append] at hsingle
        rw [hsingle]
        exact Nat.zero_add n
      · rw [decimal_of_le (Nat.not_lt.mp h),
          digitsValue_append_digit _ (Nat.mod_lt n (by omega)),
          ih (n / 10) (by omega)]
        exact Nat.div_add_mod n 10

theorem decimal_injective : Function.Injective decimal := by
  intro m n h
  rw [← digitsValue_decimal m, h, digitsValue_decimal]

/-- A printed number is read back if it fits. -/
theorem parseUint_decimal {n bits : Nat} (h : n < 2 ^ bits) :
    parseUint (decimal n) bits = some n := by
  unfold parseUint
  rw [if_pos, digitsValue_decimal]
  refine ⟨decimal_ne_nil n, List.all_eq_true.mpr (isDigit_of_mem_decimal n), ?_⟩
  rw [digitsValue_decimal]
  exact h

theorem parseUint_eq_some {b : List UInt8} {bits n : Nat}
    (h : parseUint b bits = some n) : n = digitsValue b := by
  unfold parseUint at h
  split at h
  · exact (Option.some.inj h).symm
  · cases h

theorem length_decimal_le (k : Nat) :
    forall n, n < 10 ^ (k + 1) -> (decimal n).length ≤ k + 1 := by
  induction k with
  | zero =>
      intro n hn
      rw [decimal_of_lt (by simpa using hn)]
      exact Nat.le_refl 1
  | succ k ih =>
      intro n hn
      by_cases h : n < 10
      · rw [decimal_of_lt h]
        exact Nat.succ_le_succ (Nat.zero_le _)
      · rw [decimal_of_le (Nat.not_lt.mp h), List.length_append]
        have hdiv : n / 10 < 10 ^ (k + 1) := by
          rw [Nat.div_lt_iff_lt_mul (by omega), ← Nat.pow_succ]
          exact hn
        exact Nat.succ_le_succ (ih (n / 10) hdiv)

/-!
# Splitting
-/

/-- The first field reaches to the first separator. -/
theorem head?_splitN (sep : UInt8) (n : Nat) (b : List UInt8) :
    (splitN sep (n + 2) b).head? = some (b.takeWhile (· ≠ sep)) := by
  unfold splitN
  rw [List.span_eq_takeWhile_dropWhile]
  cases b.dropWhile (· ≠ sep) with
  | nil => rfl
  | cons c rest => rfl

theorem splitN_append {sep : UInt8} {field : List UInt8} (n : Nat)
    (rest : List UInt8) (h : sep ∉ field) :
    splitN sep (n + 2) (field ++ sep :: rest) =
      field :: splitN sep (n + 1) rest := by
  have hspan : (field ++ sep :: rest).span (· ≠ sep) = (field, sep :: rest) := by
    rw [List.span_eq_takeWhile_dropWhile]
    have hall : forall c, c ∈ field -> decide (c ≠ sep) = true := by
      intro c hc
      rw [decide_eq_true_iff]
      intro hsame
      subst hsame
      exact h hc
    rw [List.takeWhile_append_of_pos hall, List.dropWhile_append_of_pos hall]
    simp
  simp only [splitN]
  rw [hspan]

theorem not_mem_decimal {c : UInt8} (h : isDigit c = false) (n : Nat) :
    c ∉ decimal n := by
  intro hc
  rw [isDigit_of_mem_decimal n c hc] at h
  cases h

end Foundation
