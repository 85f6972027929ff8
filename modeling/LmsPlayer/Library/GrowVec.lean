import Mathlib.Data.List.Basic

/-!
# GrowVec — vectors that grow

A list of elements with a capacity.  Adding elements beyond the capacity makes it larger, by an
amount that is up to the allocator: `Growth` says no more than that it suffices.  Taking elements
from the front leaves the capacity alone.
-/

/-- How the allocator grows a vector of the given capacity that is to hold the given number of
elements. -/
structure Growth where
  grow : Nat → Nat → Nat
  le_grow : ∀ capacity needed, needed ≤ grow capacity needed

/-- No more than what is needed. -/
def Growth.exact : Growth :=
  { grow := fun _ needed => needed
    le_grow := fun _ needed => Nat.le_refl needed }

structure GrowVec (g : Growth) (α : Type) where
  data : List α
  capacity : Nat
  length_le : data.length ≤ capacity

namespace GrowVec

variable {g : Growth} {α : Type}

def len (v : GrowVec g α) : Nat := v.data.length

def isEmpty (v : GrowVec g α) : Bool := v.data.isEmpty

def withCapacity (n : Nat) : GrowVec g α :=
  { data := []
    capacity := g.grow 0 n
    length_le := Nat.zero_le _ }

/-- The capacity for `needed` elements. -/
def roomFor (v : GrowVec g α) (needed : Nat) : Nat :=
  if needed ≤ v.capacity then v.capacity else g.grow v.capacity needed

theorem le_roomFor (v : GrowVec g α) (needed : Nat) : needed ≤ v.roomFor needed := by
  unfold roomFor
  split
  · assumption
  · exact g.le_grow _ _

def extend (v : GrowVec g α) (xs : List α) : GrowVec g α :=
  { data := v.data ++ xs
    capacity := v.roomFor (v.data.length + xs.length)
    length_le := by
      rw [List.length_append]
      exact v.le_roomFor _ }

/-- Room for `additional` elements more. -/
def reserve (v : GrowVec g α) (additional : Nat) : GrowVec g α :=
  { data := v.data
    capacity := v.roomFor (v.data.length + additional)
    length_le := Nat.le_trans (Nat.le_add_right _ _) (v.le_roomFor _) }

/-- `drain(..n)`: what is left once the first `n` elements are taken. -/
def drain (v : GrowVec g α) (n : Nat) : GrowVec g α :=
  { data := v.data.drop n
    capacity := v.capacity
    length_le := by
      rw [List.length_drop]
      exact Nat.le_trans (Nat.sub_le _ _) v.length_le }

@[simp] theorem data_withCapacity (n : Nat) : (withCapacity n : GrowVec g α).data = [] := rfl

@[simp] theorem data_extend (v : GrowVec g α) (xs : List α) :
    (v.extend xs).data = v.data ++ xs := rfl

@[simp] theorem data_reserve (v : GrowVec g α) (n : Nat) : (v.reserve n).data = v.data := rfl

@[simp] theorem data_drain (v : GrowVec g α) (n : Nat) : (v.drain n).data = v.data.drop n := rfl

@[simp] theorem len_drain (v : GrowVec g α) (n : Nat) : (v.drain n).len = v.len - n :=
  List.length_drop

theorem isEmpty_iff {v : GrowVec g α} : v.isEmpty = true ↔ v.data = [] := List.isEmpty_iff

theorem len_eq_zero {v : GrowVec g α} : v.len = 0 ↔ v.data = [] := List.length_eq_zero_iff

end GrowVec
