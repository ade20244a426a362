import Mathlib.Data.List.Induction

/-! # Machines that watch a signal

A machine takes one input a tick and gives something out. A signal is a
sequence of truth values, with a value from before its first one; its edges
are the places where the value changes.

* `after`: the state of a machine after some inputs;
* `lastOf`: the value of a signal before the next one;
* `rises`, `falls`: how many edges a signal has;
* `edges_eq_zero_iff`: a signal without edges is constant.
-/

namespace Signal

universe u v w

/-- The state after the inputs `xs`. -/
def after {σ : Type u} {ι : Type v} {ο : Type w} (step : σ → ι → σ × ο) (s : σ) (xs : List ι) : σ :=
  xs.foldl (fun s x => (step s x).1) s

@[simp] theorem after_nil {σ : Type u} {ι : Type v} {ο : Type w} (step : σ → ι → σ × ο) (s : σ) :
    after step s [] = s := by
  unfold after
  exact List.foldl_nil

@[simp] theorem after_append_singleton {σ : Type u} {ι : Type v} {ο : Type w}
    (step : σ → ι → σ × ο) (s : σ) (xs : List ι) (x : ι) :
    after step s (xs ++ [x]) = (step (after step s xs) x).1 := by
  unfold after
  rw [List.foldl_append, List.foldl_cons, List.foldl_nil]

/-- An inductive invariant holds after any inputs. -/
theorem after_invariant {σ : Type u} {ι : Type v} {ο : Type w} {step : σ → ι → σ × ο}
    {Inv : σ → Prop} (hstep : ∀ s x, Inv s → Inv (step s x).1) {s : σ} (hs : Inv s)
    (xs : List ι) : Inv (after step s xs) := by
  induction xs using List.reverseRecOn with
  | nil => simpa using hs
  | append_singleton xs x ih =>
      rw [after_append_singleton]
      exact hstep _ _ ih

/-! ## Signals -/

/-- The last value of a signal that was `before` at first. -/
def lastOf {α : Type u} (before : α) (xs : List α) : α := xs.getLast?.getD before

@[simp] theorem lastOf_nil {α : Type u} (before : α) : lastOf before [] = before := by
  simp [lastOf]

@[simp] theorem lastOf_append_singleton {α : Type u} (before : α) (xs : List α) (x : α) :
    lastOf before (xs ++ [x]) = x := by
  simp [lastOf]

@[simp] theorem lastOf_cons {α : Type u} (before x : α) (xs : List α) :
    lastOf before (x :: xs) = lastOf x xs := by
  simp [lastOf, List.getLast?_cons]

theorem lastOf_append {α : Type u} (before : α) (xs ys : List α) :
    lastOf before (xs ++ ys) = lastOf (lastOf before xs) ys := by
  induction xs generalizing before with
  | nil => rw [List.nil_append, lastOf_nil]
  | cons x xs ih => rw [List.cons_append, lastOf_cons, lastOf_cons, ih]

/-- A signal that keeps its value ends with it. -/
theorem lastOf_eq {α : Type u} {before : α} {xs : List α} (h : ∀ x ∈ xs, x = before) :
    lastOf before xs = before := by
  unfold lastOf
  cases hlast : xs.getLast? with
  | none => rfl
  | some x => exact h x (List.mem_of_getLast? hlast)

/-- The number of changes from false to true. -/
def rises : Bool → List Bool → ℕ
  | _, [] => 0
  | before, x :: xs => (if before = false ∧ x = true then 1 else 0) + rises x xs

/-- The number of changes from true to false. -/
def falls : Bool → List Bool → ℕ
  | _, [] => 0
  | before, x :: xs => (if before = true ∧ x = false then 1 else 0) + falls x xs

theorem rises_append (before : Bool) (xs ys : List Bool) :
    rises before (xs ++ ys) = rises before xs + rises (lastOf before xs) ys := by
  induction xs generalizing before with
  | nil => simp [rises]
  | cons x xs ih =>
      rw [List.cons_append, rises, ih, rises, lastOf_cons]
      omega

theorem falls_append (before : Bool) (xs ys : List Bool) :
    falls before (xs ++ ys) = falls before xs + falls (lastOf before xs) ys := by
  induction xs generalizing before with
  | nil => simp [falls]
  | cons x xs ih =>
      rw [List.cons_append, falls, ih, falls, lastOf_cons]
      omega

/-- A signal without edges is constant. -/
theorem edges_eq_zero_iff (before : Bool) (xs : List Bool) :
    rises before xs = 0 ∧ falls before xs = 0 ↔ ∀ x ∈ xs, x = before := by
  induction xs generalizing before with
  | nil => simp [rises, falls]
  | cons x xs ih =>
      rw [rises, falls, List.forall_mem_cons]
      constructor
      · rintro ⟨hrises, hfalls⟩
        -- neither edge is at the head, so the head has the old value
        have hx : x = before := by
          cases before <;> cases x <;> simp_all
        subst hx
        exact ⟨rfl, (ih x).1 ⟨by omega, by omega⟩⟩
      · rintro ⟨rfl, hxs⟩
        rcases (ih x).2 hxs with ⟨hrises, hfalls⟩
        cases x <;> simp [hrises, hfalls]

end Signal
