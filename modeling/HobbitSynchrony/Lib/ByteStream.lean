import Mathlib.Data.List.Basic
import Mathlib.Order.MinMax

/-! # Reading from a stream that is split anywhere

A receiver asks for a number of units and is given some of them, at least one
as long as there is one left. How many is up to the network.

* `Splitting`: one way the network can split a stream;
* `readFull`: the loop that asks again until it has what it wants;
* `readFull_append`: it gets the same units under every splitting.
-/

namespace ByteStream

universe u

/-- How many units a receiver is given that asks for `want` with `left` units
still to come. Every read moves the stream on, so the number of units left
tells the reads of one stream apart. -/
structure Splitting where
  size : ℕ → ℕ → ℕ
  size_le_want : ∀ want left, size want left ≤ want
  size_le_left : ∀ want left, size want left ≤ left
  size_pos : ∀ want left, 0 < want → 0 < left → 0 < size want left

namespace Splitting

/-- Every read is given all it asks for, if that much is left. -/
def whole : Splitting where
  size := min
  size_le_want := min_le_left
  size_le_left := min_le_right
  size_pos := fun _ _ hwant hleft => lt_min hwant hleft

/-- Every read is given at most `n + 1` units. -/
def atMost (n : ℕ) : Splitting where
  size := fun want left => min (n + 1) (min want left)
  size_le_want := fun _ _ => (min_le_right _ _).trans (min_le_left _ _)
  size_le_left := fun _ _ => (min_le_right _ _).trans (min_le_right _ _)
  size_pos := fun _ _ hwant hleft => lt_min (Nat.succ_pos n) (lt_min hwant hleft)

end Splitting

variable {α : Type u}

/-- The loop that reads until it has `want` units: what it has got, and what is
left of the stream; `none` if the stream ends before. -/
def readFull (sp : Splitting) (want : ℕ) (got left : List α) : Option (List α × List α) :=
  if got.length < want then
    let k := sp.size (want - got.length) left.length
    -- a read gives nothing only at the end of the stream
    if k = 0 then none
    else readFull sp want (got ++ left.take k) (left.drop k)
  else some (got, left)
termination_by want - got.length
decreasing_by
  have hleft := sp.size_le_left (want - got.length) left.length
  simp only [List.length_append, List.length_take]
  omega

/-- The stream has ended. -/
theorem readFull_of_size_eq_zero {sp : Splitting} {want : ℕ} {got left : List α}
    (hlt : got.length < want) (hk : sp.size (want - got.length) left.length = 0) :
    readFull sp want got left = none := by
  rw [readFull, if_pos hlt]
  exact if_pos hk

/-- One more read. -/
theorem readFull_of_size_ne_zero {sp : Splitting} {want : ℕ} {got left : List α}
    (hlt : got.length < want) (hk : sp.size (want - got.length) left.length ≠ 0) :
    readFull sp want got left =
      readFull sp want (got ++ left.take (sp.size (want - got.length) left.length))
        (left.drop (sp.size (want - got.length) left.length)) := by
  rw [readFull, if_pos hlt]
  exact if_neg hk

/-- A stream that is long enough gives the units that come next. -/
theorem readFull_eq (sp : Splitting) (want : ℕ) (got left : List α) (hgot : got.length ≤ want)
    (hleft : want - got.length ≤ left.length) :
    readFull sp want got left =
      some (got ++ left.take (want - got.length), left.drop (want - got.length)) := by
  induction got, left using readFull.induct sp want with
  | case1 got left hlt k hk =>
      -- nothing is given only at the end of the stream
      have hpos := sp.size_pos (want - got.length) left.length (by omega) (by omega)
      omega
  | case2 got left hlt k hk ih =>
      -- `k` units now, and the rest of the loop brings the others
      have hwant : k ≤ want - got.length := sp.size_le_want _ _
      have hk' : k ≤ left.length := sp.size_le_left _ _
      have hlen : (got ++ left.take k).length = got.length + k := by
        rw [List.length_append, List.length_take, min_eq_left hk']
      have hrest : want - got.length = k + (want - (got ++ left.take k).length) := by
        rw [hlen]
        omega
      have hih := ih (by omega) (by rw [List.length_drop]; omega)
      rw [readFull_of_size_ne_zero hlt hk, hih, hrest, List.take_add, List.drop_drop,
        List.append_assoc]
  | case3 got left hlt =>
      have hzero : want - got.length = 0 := by omega
      rw [readFull, if_neg hlt, hzero]
      simp

/-- A stream that is too short gives nothing. -/
theorem readFull_eq_none (sp : Splitting) (want : ℕ) (got left : List α)
    (hleft : left.length < want - got.length) : readFull sp want got left = none := by
  induction got, left using readFull.induct sp want with
  | case1 got left hlt k hk => exact readFull_of_size_eq_zero hlt hk
  | case2 got left hlt k hk ih =>
      -- as much is missing as before
      have hk' : k ≤ left.length := sp.size_le_left _ _
      rw [readFull_of_size_ne_zero hlt hk]
      apply ih
      rw [List.length_drop, List.length_append, List.length_take, min_eq_left hk']
      omega
  | case3 got left hlt => omega

/-- However the stream is split, its first units are read as they were sent. -/
theorem readFull_append (sp : Splitting) (front rest : List α) :
    readFull sp front.length [] (front ++ rest) = some (front, rest) := by
  rw [readFull_eq sp _ _ _ (Nat.zero_le _) (by simp)]
  simp

/-- Reading does not lengthen the stream. -/
theorem length_le_of_readFull {sp : Splitting} {want : ℕ} {got left buffer rest : List α}
    (h : readFull sp want got left = some (buffer, rest)) : rest.length ≤ left.length := by
  induction got, left using readFull.induct sp want with
  | case1 got left hlt k hk =>
      rw [readFull_of_size_eq_zero hlt hk] at h
      cases h
  | case2 got left hlt k hk ih =>
      rw [readFull_of_size_ne_zero hlt hk] at h
      exact (ih h).trans (by rw [List.length_drop]; omega)
  | case3 got left hlt =>
      rw [readFull, if_neg hlt] at h
      obtain ⟨rfl, rfl⟩ := Prod.mk.inj (Option.some.inj h)
      exact le_rfl

end ByteStream
