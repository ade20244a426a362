import Mathlib.Algebra.BigOperators.Group.List.Basic
import Mathlib.Algebra.Order.Group.Defs
import Mathlib.Algebra.Order.Monoid.Unbundled.MinMax
import Mathlib.Tactic.Abel

/-! # Sums that stay above zero

A value that changes are added to, one after the other, and that is set to 0
whenever it would fall below.

* `clampedSum`: the value after all changes;
* `floor`: what is left if the first change makes it 0;
* `clampedSum_eq_max`: the sum of all changes, or the floor;
* `clampedSum_eq_iff`: when two orders of the same changes give the same.
-/

namespace ClampedSum

universe u

variable {G : Type u} [AddCommGroup G] [LinearOrder G]

/-- Add the changes to `x`, at least 0 after each of them. -/
def clampedSum (x : G) (changes : List G) : G :=
  changes.foldl (fun x change => max 0 (x + change)) x

@[simp] theorem clampedSum_nil (x : G) : clampedSum x [] = x := rfl

@[simp] theorem clampedSum_cons (x change : G) (changes : List G) :
    clampedSum x (change :: changes) = clampedSum (max 0 (x + change)) changes := rfl

theorem clampedSum_append (x : G) (changes later : List G) :
    clampedSum x (changes ++ later) = clampedSum (clampedSum x changes) later :=
  List.foldl_append

/-- What the changes leave if the first of them makes the value 0. -/
def floor (changes : List G) : G := clampedSum 0 changes.tail

variable [IsOrderedAddMonoid G]

/-- From 0 or more on, the value is the plain sum, or what the changes make of 0
if that is more. -/
theorem clampedSum_max_zero (x : G) (changes : List G) :
    clampedSum (max 0 x) changes = max (x + changes.sum) (clampedSum 0 changes) := by
  induction changes generalizing x with
  | nil => rw [List.sum_nil, add_zero, clampedSum_nil, clampedSum_nil, max_comm]
  | cons change changes ih =>
      have hzero := ih (0 + change)
      have hadd : max 0 x + change + changes.sum =
          max (0 + change + changes.sum) (x + change + changes.sum) := by
        rw [max_add, max_add]
      rw [clampedSum_cons, clampedSum_cons, ih, hzero, hadd, List.sum_cons, ← add_assoc,
        max_assoc, max_left_comm]

theorem clampedSum_eq_max (x : G) {changes : List G} (h : changes ≠ []) :
    clampedSum x changes = max (x + changes.sum) (floor changes) := by
  rcases List.exists_cons_of_ne_nil h with ⟨change, rest, rfl⟩
  rw [clampedSum_cons, clampedSum_max_zero, List.sum_cons, add_assoc]
  exact rfl

/-- Two lists of changes with the same sum: the sum is not below either floor, or
the floors are the same. -/
theorem clampedSum_eq_iff (x : G) {changes changes' : List G} (h : changes ≠ [])
    (h' : changes' ≠ []) (hsum : changes.sum = changes'.sum) :
    clampedSum x changes = clampedSum x changes' ↔
      floor changes ≤ x + changes.sum ∧ floor changes' ≤ x + changes.sum ∨
        floor changes = floor changes' := by
  rw [clampedSum_eq_max x h, clampedSum_eq_max x h', ← hsum]
  generalize x + changes.sum = s
  generalize floor changes = a
  generalize floor changes' = b
  constructor
  · intro heq
    by_cases ha : a ≤ s
    · -- the sum is left of the first list, so the second floor is not above it
      rw [max_eq_left ha] at heq
      exact .inl ⟨ha, max_eq_left_iff.1 heq.symm⟩
    · have hlt := not_le.1 ha
      rw [max_eq_right hlt.le] at heq
      have hb : ¬ b ≤ s := by
        intro hle
        rw [max_eq_left hle] at heq
        exact ha heq.le
      rw [max_eq_right (not_le.1 hb).le] at heq
      exact .inr heq
  · rintro (⟨ha, hb⟩ | rfl)
    · rw [max_eq_left ha, max_eq_left hb]
    · exact rfl

/-- The changes of two batches, in the two orders. -/
theorem clampedSum_comm_iff (x : G) (changes changes' : List G) :
    clampedSum (clampedSum x changes) changes' = clampedSum (clampedSum x changes') changes ↔
      floor (changes ++ changes') ≤ x + (changes.sum + changes'.sum) ∧
          floor (changes' ++ changes) ≤ x + (changes.sum + changes'.sum) ∨
        floor (changes ++ changes') = floor (changes' ++ changes) := by
  rw [← clampedSum_append, ← clampedSum_append]
  by_cases hnone : changes ++ changes' = []
  · -- no change in either batch
    rcases List.append_eq_nil_iff.1 hnone with ⟨rfl, rfl⟩
    exact iff_of_true rfl (.inr rfl)
  · have hnone' : changes' ++ changes ≠ [] := by
      intro hnil
      rcases List.append_eq_nil_iff.1 hnil with ⟨rfl, rfl⟩
      exact hnone rfl
    rw [clampedSum_eq_iff x hnone hnone' (by simp [add_comm]), List.sum_append]

end ClampedSum
