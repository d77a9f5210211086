import Mathlib

/-!
# Finite tables and secondary indexes

A table is a finite map.  Objects are found by a primary key; an object may also
carry a secondary key, and an index is the table that leads back from it.  An
index agrees with the objects when it is exactly the inverse of the function
that reads the secondary key of an object, which makes this function injective
where it is defined.  A log of the values that objects were given agrees with
the objects that are still there.
-/

namespace Foundation

/-- A finite map with decidable keys. -/
abbrev Table (key value : Type) : Type :=
  AList fun _ : key => value

/-- The table is the inverse of the partial function. -/
def Indexes {key object : Type} [DecidableEq key] (index : Table key object)
    (keyOf : object -> Option key) : Prop :=
  forall k x, index.lookup k = some x <-> keyOf x = some k

namespace Indexes

variable {key object : Type} [DecidableEq key]
variable {index : Table key object} {keyOf : object -> Option key}

theorem empty (h : forall x, keyOf x = none) :
    Indexes (∅ : Table key object) keyOf := by
  intro k x
  rw [AList.lookup_empty, h x]
  constructor <;> intro hcontra <;> cases hcontra

/-- No two objects carry one key. -/
theorem injective (h : Indexes index keyOf) {k : key} {x y : object}
    (hx : keyOf x = some k) (hy : keyOf y = some k) : x = y := by
  have hxy := (h k x).mpr hx
  rw [(h k y).mpr hy] at hxy
  cases hxy
  rfl

/-- Storing an entry again changes nothing. -/
theorem insert_again (h : Indexes index keyOf) {k : key} {x : object}
    (hx : keyOf x = some k) : Indexes (index.insert k x) keyOf := by
  intro l y
  by_cases hl : l = k
  · subst hl
    rw [AList.lookup_insert, ← h l y, (h l x).mpr hx]
  · rw [AList.lookup_insert_ne hl]
    exact h l y

/-- Erasing a key that nobody carries changes nothing. -/
theorem erase_unused (h : Indexes index keyOf) {k : key}
    (hk : forall x, keyOf x ≠ some k) : Indexes (index.erase k) keyOf := by
  intro l y
  by_cases hl : l = k
  · subst hl
    rw [AList.lookup_erase]
    constructor
    · intro hcontra
      cases hcontra
    · intro hkey
      exact absurd hkey (hk y)
  · rw [AList.lookup_erase_ne hl]
    exact h l y

variable [DecidableEq object]

/-- An object without a key receives an unused one. -/
theorem insert (h : Indexes index keyOf) {k : key} {x : object}
    (hfree : index.lookup k = none) (hx : keyOf x = none) :
    Indexes (index.insert k x) (Function.update keyOf x (some k)) := by
  intro l y
  by_cases hl : l = k
  · subst hl
    rw [AList.lookup_insert]
    by_cases hy : y = x
    · subst hy
      simp
    · rw [Function.update_of_ne hy]
      constructor
      · intro hsame
        exact absurd (Option.some.inj hsame).symm hy
      · intro hkey
        rw [(h l y).mpr hkey] at hfree
        cases hfree
  · rw [AList.lookup_insert_ne hl]
    by_cases hy : y = x
    · subst hy
      rw [Function.update_self]
      constructor
      · intro hlookup
        rw [(h l y).mp hlookup] at hx
        cases hx
      · intro hsame
        exact absurd (Option.some.inj hsame).symm hl
    · rw [Function.update_of_ne hy]
      exact h l y

/-- An object goes away together with the entry of its key. -/
theorem erase (h : Indexes index keyOf) {k : key} {x : object}
    (hx : keyOf x = some k) :
    Indexes (index.erase k) (Function.update keyOf x none) := by
  intro l y
  by_cases hy : y = x
  · subst hy
    rw [Function.update_self]
    by_cases hl : l = k
    · subst hl
      rw [AList.lookup_erase]
      constructor <;> intro hcontra <;> cases hcontra
    · rw [AList.lookup_erase_ne hl]
      constructor
      · intro hlookup
        rw [(h l y).mp hlookup] at hx
        exact absurd (Option.some.inj hx) hl
      · intro hcontra
        cases hcontra
  · rw [Function.update_of_ne hy]
    by_cases hl : l = k
    · subst hl
      rw [AList.lookup_erase]
      constructor
      · intro hcontra
        cases hcontra
      · intro hkey
        exact absurd (h.injective hkey hx) hy
    · rw [AList.lookup_erase_ne hl]
      exact h l y

end Indexes

/--
A log of objects and values agrees with the values that the live objects carry,
and mentions no object that is still to come.
-/
structure Recorded {object value : Type} (old live : object -> Prop)
    (log : List (object × value)) (valueOf : object -> Option value) :
    Prop where
  entries : forall x v, (x, v) ∈ log -> old x ∧ (live x -> valueOf x = some v)
  carried : forall x v, valueOf x = some v -> (x, v) ∈ log

namespace Recorded

variable {object value : Type} {old old' live live' : object -> Prop}
variable {log : List (object × value)} {valueOf : object -> Option value}

/-- Time goes on, and no old object comes back to life. -/
theorem mono (h : Recorded old live log valueOf)
    (hold : forall x, old x -> old' x)
    (hlive : forall x, old x -> live' x -> live x) :
    Recorded old' live' log valueOf := by
  constructor
  · intro x v hmem
    rcases h.entries x v hmem with ⟨hx, hvalue⟩
    exact ⟨hold x hx, fun hnow => hvalue (hlive x hx hnow)⟩
  · exact h.carried

variable [DecidableEq object]

/-- An object receives a value that contradicts none it had before. -/
theorem insert (h : Recorded old live log valueOf) {x : object} {v : value}
    (hx : old x) (hsame : forall u, valueOf x = some u -> u = v) :
    Recorded old live ((x, v) :: log) (Function.update valueOf x (some v)) := by
  constructor
  · intro y u hmem
    rcases List.mem_cons.mp hmem with heq | hmem
    · cases heq
      exact ⟨hx, fun _ => Function.update_self ..⟩
    · rcases h.entries y u hmem with ⟨hy, hvalue⟩
      refine ⟨hy, fun hnow => ?_⟩
      by_cases hyx : y = x
      · subst hyx
        rw [Function.update_self, hsame u (hvalue hnow)]
      · rw [Function.update_of_ne hyx]
        exact hvalue hnow
  · intro y u hvalue
    by_cases hyx : y = x
    · subst hyx
      rw [Function.update_self] at hvalue
      cases hvalue
      exact List.mem_cons_self
    · rw [Function.update_of_ne hyx] at hvalue
      exact List.mem_cons_of_mem _ (h.carried y u hvalue)

/-- An object that is gone carries nothing; the log remembers it. -/
theorem erase (h : Recorded old live log valueOf) {x : object}
    (hlive : forall y, live' y -> y ≠ x ∧ live y) :
    Recorded old live' log (Function.update valueOf x none) := by
  constructor
  · intro y v hmem
    rcases h.entries y v hmem with ⟨hy, hvalue⟩
    refine ⟨hy, fun hnow => ?_⟩
    rcases hlive y hnow with ⟨hyx, hbefore⟩
    rw [Function.update_of_ne hyx]
    exact hvalue hbefore
  · intro y v hvalue
    by_cases hyx : y = x
    · rw [hyx, Function.update_self] at hvalue
      cases hvalue
    · rw [Function.update_of_ne hyx] at hvalue
      exact h.carried y v hvalue

end Recorded

end Foundation
