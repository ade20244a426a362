import Mathlib.Data.List.Basic
import Mathlib.Tactic.Common

/-! # Occurrences of a pattern in a list

* `OccursAt`: the pattern stands in the text at an index;
* `occurrences`: the indices below a bound at which it does, in ascending order;
* `occursAt_last_iff`: an occurrence that ends with the text is a suffix.
-/

namespace Occurrences

universe u

variable {α : Type u} {pattern text : List α} {k bound : ℕ}

/-- The pattern stands in the text at index `k`. -/
def OccursAt (pattern text : List α) (k : ℕ) : Prop := pattern <+: text.drop k

/-- It is what a comparison of as many elements tests. -/
theorem occursAt_iff_take :
    OccursAt pattern text k ↔ (text.drop k).take pattern.length = pattern := by
  unfold OccursAt
  rw [List.prefix_iff_eq_take]
  exact eq_comm

/-- An occurrence ends inside the text. -/
theorem OccursAt.le (h : OccursAt pattern text k) (hpattern : pattern ≠ []) :
    k + pattern.length ≤ text.length := by
  have hlen : pattern.length ≤ (text.drop k).length := List.IsPrefix.length_le h
  have hpos : 0 < pattern.length := List.length_pos_iff.2 hpattern
  rw [List.length_drop] at hlen
  omega

/-- The last place for an occurrence is at the end of the text. -/
theorem occursAt_last_iff (h : pattern.length ≤ text.length) :
    OccursAt pattern text (text.length - pattern.length) ↔ pattern <:+ text := by
  have hlen : pattern.length = (text.drop (text.length - pattern.length)).length := by
    rw [List.length_drop]
    omega
  unfold OccursAt
  rw [List.suffix_iff_eq_drop]
  constructor
  · intro hfront
    exact hfront.eq_of_length hlen
  · intro heq
    exact ⟨[], (List.append_nil pattern).trans heq⟩

variable [DecidableEq α]

instance (pattern text : List α) (k : ℕ) : Decidable (OccursAt pattern text k) :=
  inferInstanceAs (Decidable (pattern <+: text.drop k))

/-- The indices below a bound at which the pattern stands. -/
def occurrences (pattern text : List α) (bound : ℕ) : List ℕ :=
  (List.range bound).filter fun k => OccursAt pattern text k

theorem mem_occurrences :
    k ∈ occurrences pattern text bound ↔ k < bound ∧ OccursAt pattern text k := by
  unfold occurrences
  rw [List.mem_filter, List.mem_range, decide_eq_true_iff]

theorem pairwise_occurrences (pattern text : List α) (bound : ℕ) :
    (occurrences pattern text bound).Pairwise (· < ·) :=
  List.Pairwise.filter _ List.pairwise_lt_range

end Occurrences
