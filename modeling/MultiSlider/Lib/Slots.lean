import Mathlib.Data.List.Nodup
import Mathlib.Logic.Function.Basic

/-! Slots with a stack of the free ones. Taking a slot off the stack and putting an occupied one back keep the
    stack and the occupied slots apart. -/

namespace Slots

universe u

variable {α : Type u}

/-- The stack and the occupied slots divide the slots below `n` between them. -/
structure Partition (n : Nat) (free : List Nat) (table : Nat → Option α) : Prop where
  nodup : free.Nodup
  mem_free : ∀ i, i ∈ free ↔ i < n ∧ table i = none
  bound : ∀ i x, table i = some x → i < n

variable {n i : Nat} {free : List Nat} {table : Nat → Option α} {x : α}

/-- All slots are free. -/
theorem Partition.init (n : Nat) : Partition n (List.range n) fun _ => (none : Option α) where
  nodup := List.nodup_range
  mem_free i := by simp
  bound i x h := by cases h

/-- The slot on top is taken. -/
theorem Partition.pop (h : Partition n (i :: free) table) (x : α) :
    Partition n free (Function.update table i (some x)) where
  nodup := (List.nodup_cons.mp h.nodup).2
  mem_free j := by
    by_cases hj : j = i
    · subst hj
      simp [(List.nodup_cons.mp h.nodup).1]
    · rw [Function.update_of_ne hj, ← h.mem_free, List.mem_cons]
      exact ⟨Or.inr, fun hmem => hmem.resolve_left hj⟩
  bound j y hy := by
    by_cases hj : j = i
    · subst hj
      exact ((h.mem_free j).mp List.mem_cons_self).1
    · rw [Function.update_of_ne hj] at hy
      exact h.bound j y hy

/-- An occupied slot is put back. -/
theorem Partition.push (h : Partition n free table) (hi : table i = some x) :
    Partition n (i :: free) (Function.update table i none) where
  nodup := by
    refine List.nodup_cons.mpr ⟨fun hmem => ?_, h.nodup⟩
    rw [h.mem_free, hi] at hmem
    cases hmem.2
  mem_free j := by
    by_cases hj : j = i
    · subst hj
      simp [h.bound j x hi]
    · rw [Function.update_of_ne hj, ← h.mem_free, List.mem_cons]
      exact ⟨fun hmem => hmem.resolve_left hj, Or.inr⟩
  bound j y hy := by
    by_cases hj : j = i
    · subst hj
      rw [Function.update_self] at hy
      cases hy
    · rw [Function.update_of_ne hj] at hy
      exact h.bound j y hy

end Slots
