import Mathlib.Data.List.Basic

/-! # Texts made of lines

Lines as a reader gets them that asks for one line after the other, and the
lines between two marker lines.

* `getLines`: the lines of a text, without the separators;
* `getLines_unlines`: lines that were written are read back, if no separator is
  in them;
* `between`: what is between a start line and a stop line;
* `between_unlines_iff`: items written as lines between two markers are read
  back exactly if they look like neither a marker nor more than one line.
-/

namespace Lines

universe u

section lines

variable {α : Type u} [DecidableEq α]

/-- The lines of a text. A separator at the end does not begin another line. -/
def getLines (sep : α) (xs : List α) : List (List α) :=
  if (xs.splitOn sep).getLast? = some [] then (xs.splitOn sep).dropLast else xs.splitOn sep

/-- Each item as a line that ends with a separator. -/
def unlines (sep : α) (items : List (List α)) : List α := items.flatMap (· ++ [sep])

/-- A first line that ends with a separator. -/
theorem getLines_append_cons {sep : α} {l : List α} (h : sep ∉ l) (rest : List α) :
    getLines sep (l ++ sep :: rest) = l :: getLines sep rest := by
  have hne : rest.splitOn sep ≠ [] := List.splitOn_ne_nil sep rest
  unfold getLines
  rw [List.splitOn_append_cons_self_of_not_mem h, List.getLast?_cons_of_ne_nil hne]
  split
  · rw [List.dropLast_cons_of_ne_nil hne]
  · trivial

/-- A last line without a separator. -/
theorem getLines_singleton {sep : α} {l : List α} (h : sep ∉ l) (hne : l ≠ []) :
    getLines sep l = [l] := by
  unfold getLines
  rw [List.splitOn_eq_singleton h, List.getLast?_singleton]
  simp [hne]

/-- Lines that were written are read back. -/
theorem getLines_unlines {sep : α} {items : List (List α)} (h : ∀ l ∈ items, sep ∉ l)
    (rest : List α) : getLines sep (unlines sep items ++ rest) = items ++ getLines sep rest := by
  induction items with
  | nil => simp [unlines]
  | cons l items ih =>
      have hitems := ih fun x hx => h x (List.mem_cons_of_mem l hx)
      have hsplit : unlines sep (l :: items) ++ rest = l ++ sep :: (unlines sep items ++ rest) := by
        simp [unlines]
      rw [hsplit, getLines_append_cons (h l List.mem_cons_self), hitems, List.cons_append]

theorem notMem_of_mem_splitOn {sep : α} {xs l : List α} (h : l ∈ xs.splitOn sep) :
    sep ∉ l := by
  induction xs generalizing l with
  | nil =>
      rw [List.splitOn_nil, List.mem_singleton] at h
      simp [h]
  | cons x xs ih =>
      rw [List.splitOn_cons_eq_if_modifyHead] at h
      split at h
      next hx =>
        -- a separator: an empty piece in front of the others
        rcases List.mem_cons.1 h with rfl | h
        · simp
        · exact ih h
      next hx =>
        have hne : sep ≠ x := fun heq => hx (by simp [heq])
        cases hsplit : xs.splitOn sep with
        | nil => simp [hsplit] at h
        | cons l' ls =>
            rw [hsplit, List.modifyHead_cons, List.mem_cons] at h
            rcases h with rfl | h
            · rw [List.mem_cons, not_or]
              exact ⟨hne, ih (by simp [hsplit])⟩
            · exact ih (by simp [hsplit, h])

/-- No separator is in a line. -/
theorem notMem_of_mem_getLines {sep : α} {xs l : List α} (h : l ∈ getLines sep xs) : sep ∉ l := by
  unfold getLines at h
  split at h
  · exact notMem_of_mem_splitOn (List.dropLast_subset _ h)
  · exact notMem_of_mem_splitOn h

end lines

/-! ## Marker lines -/

section markers

variable {β : Type u} [DecidableEq β]

/-- The items after a start marker and before the stop marker; start markers
are left out wherever they stand. -/
def between (start stop : β) : Bool → List β → List β
  | _, [] => []
  | inside, x :: xs =>
    if x = start then between start stop true xs
    else if x = stop then []
    else if inside then x :: between start stop inside xs
    else between start stop inside xs

theorem mem_between {start stop x : β} {inside : Bool} {xs : List β}
    (h : x ∈ between start stop inside xs) : x ∈ xs ∧ x ≠ start ∧ x ≠ stop := by
  induction xs generalizing inside with
  | nil => simp [between] at h
  | cons y xs ih =>
      rw [between] at h
      split at h
      · exact ⟨List.mem_cons_of_mem y (ih h).1, (ih h).2⟩
      next hstart =>
        split at h
        · cases h
        next hstop =>
          split at h
          · rcases List.mem_cons.1 h with rfl | h
            · exact ⟨List.mem_cons_self, hstart, hstop⟩
            · exact ⟨List.mem_cons_of_mem y (ih h).1, (ih h).2⟩
          · exact ⟨List.mem_cons_of_mem y (ih h).1, (ih h).2⟩

theorem between_append {start stop : β} {xs : List β} (h : ∀ x ∈ xs, x ≠ start ∧ x ≠ stop)
    (hne : stop ≠ start) (rest : List β) :
    between start stop true (xs ++ stop :: rest) = xs := by
  induction xs with
  | nil => simp [between, hne]
  | cons x xs ih =>
      have hx := h x List.mem_cons_self
      rw [List.cons_append, between, if_neg hx.1, if_neg hx.2, if_pos rfl,
        ih fun y hy => h y (List.mem_cons_of_mem x hy)]

end markers

/-- Items written as lines between two markers are read back exactly if none
has a separator in it and none is a marker. -/
theorem between_unlines_iff {α : Type u} [DecidableEq α] {sep : α} {start stop : List α}
    (hstart : sep ∉ start) (hstop : sep ∉ stop) (hne : stop ≠ start) (hstop' : stop ≠ [])
    (items : List (List α)) :
    between start stop false
        (getLines sep (start ++ sep :: (unlines sep items ++ stop))) = items ↔
      ∀ x ∈ items, sep ∉ x ∧ x ≠ start ∧ x ≠ stop := by
  constructor
  · intro h x hx
    rw [← h] at hx
    have hmem := mem_between hx
    exact ⟨notMem_of_mem_getLines hmem.1, hmem.2⟩
  · intro h
    rw [getLines_append_cons hstart, getLines_unlines fun x hx => (h x hx).1,
      getLines_singleton hstop hstop', between, if_pos rfl]
    exact between_append (fun x hx => (h x hx).2) hne []

end Lines
