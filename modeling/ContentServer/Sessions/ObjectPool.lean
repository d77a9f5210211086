import Mathlib

/-!
# The object pool

A fixed array of objects and a stack of free indices.  Freed objects keep their
contents; whoever allocates the index again has to reset them.
-/

namespace ContentServer
namespace Sessions

/-- The items and the free indices, top of the stack first. -/
structure ObjectPool (T : Type) (N : Nat) where
  items : Fin N -> T
  freeList : List (Fin N)

namespace ObjectPool

variable {T : Type} {N : Nat}

/-- Indices are pushed from the last one down, so index zero is on top. -/
def create (item : T) : ObjectPool T N where
  items := fun _ => item
  freeList := List.finRange N

/-- `Alloc`; the source returns `-1` where this is `none`. -/
def alloc (p : ObjectPool T N) : Option (Fin N × ObjectPool T N) :=
  match p.freeList with
  | [] => none
  | i :: rest => some (i, { p with freeList := rest })

def free (p : ObjectPool T N) (i : Fin N) : ObjectPool T N :=
  { p with freeList := i :: p.freeList }

/-- Replace the item at an index, as a write through `operator[]` does. -/
def set (p : ObjectPool T N) (i : Fin N) (item : T) : ObjectPool T N :=
  { p with items := fun j => if j = i then item else p.items j }

@[simp] theorem freeList_create (item : T) :
    (create item : ObjectPool T N).freeList = List.finRange N := rfl

@[simp] theorem items_set_self (p : ObjectPool T N) (i : Fin N) (item : T) :
    (p.set i item).items i = item := by
  simp [set]

theorem items_set_of_ne (p : ObjectPool T N) {i j : Fin N} (item : T)
    (h : j ≠ i) : (p.set i item).items j = p.items j := by
  simp [set, h]

theorem alloc_eq_some {p p' : ObjectPool T N} {i : Fin N}
    (h : p.alloc = some (i, p')) :
    p.freeList = i :: p'.freeList ∧ p'.items = p.items := by
  unfold alloc at h
  split at h
  · cases h
  · rename_i hfree
    cases h
    exact ⟨hfree, rfl⟩

end ObjectPool

end Sessions
end ContentServer
