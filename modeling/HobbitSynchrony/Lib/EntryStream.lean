import Mathlib.Data.List.Basic

/-! # A stream of entries

Entries of varying length written behind one another, and the loop that takes
them off again until what is left does not begin with a whole entry.

* `EntryCode`: how an entry is written and read;
* `EntryCode.Split`: a stream as whole entries and a remainder;
* `EntryCode.exists_unique_split`: every stream is split in one way;
* `EntryCode.readAll_of_split`: the loop finds the split;
* `EntryCode.split_take`: a stream of entries that is cut somewhere leaves the
  entries that are whole before the cut.
-/

universe u v

/-- How entries `E` are written as lists of `α`. The reader takes the first
entry off a list, if the list begins with one. -/
structure EntryCode (E : Type u) (α : Type v) where
  write : E → List α
  read : List α → Option (E × List α)
  write_ne_nil : ∀ e, write e ≠ []
  read_write : ∀ e rest, read (write e ++ rest) = some (e, rest)
  write_of_read : ∀ {data e rest}, read data = some (e, rest) → data = write e ++ rest

namespace EntryCode

variable {E : Type u} {α : Type v} (code : EntryCode E α)

/-- The entries written behind one another. -/
def writeAll (entries : List E) : List α := entries.flatMap code.write

/-- The data begins with a whole entry. -/
def Begins (data : List α) : Prop := ∃ e rest, data = code.write e ++ rest

/-- The data is these entries and a remainder that does not begin with another
one. -/
structure Split (data : List α) (entries : List E) (rest : List α) : Prop where
  eq : data = code.writeAll entries ++ rest
  cut : ¬ code.Begins rest

@[simp] theorem writeAll_nil : code.writeAll [] = [] := List.flatMap_nil

@[simp] theorem writeAll_cons (e : E) (entries : List E) :
    code.writeAll (e :: entries) = code.write e ++ code.writeAll entries := List.flatMap_cons

theorem length_write_pos (e : E) : 0 < (code.write e).length :=
  List.length_pos_iff.2 (code.write_ne_nil e)

/-- Two entries at the start of the same data are the same one. -/
theorem write_append_inj {e e' : E} {rest rest' : List α}
    (h : code.write e ++ rest = code.write e' ++ rest') : e = e' ∧ rest = rest' := by
  have hread := code.read_write e rest
  rw [h, code.read_write e' rest'] at hread
  cases hread
  exact ⟨rfl, rfl⟩

theorem read_eq_none_iff (data : List α) : code.read data = none ↔ ¬ code.Begins data := by
  constructor
  · rintro hread ⟨e, rest, rfl⟩
    rw [code.read_write] at hread
    cases hread
  · intro hbegins
    cases hread : code.read data with
    | none => rfl
    | some p => exact absurd ⟨p.1, p.2, code.write_of_read hread⟩ hbegins

/-- Nothing does not begin with an entry. -/
theorem not_begins_nil : ¬ code.Begins [] := by
  rintro ⟨e, rest, h⟩
  exact code.write_ne_nil e (List.append_eq_nil_iff.1 h.symm).1

/-! ## The split -/

theorem split_nil {rest : List α} (h : ¬ code.Begins rest) : code.Split rest [] rest :=
  ⟨rfl, h⟩

theorem split_cons {data : List α} {entries : List E} {rest : List α}
    (h : code.Split data entries rest) (e : E) :
    code.Split (code.write e ++ data) (e :: entries) rest := by
  constructor
  · rw [h.eq, writeAll_cons, List.append_assoc]
  · exact h.cut

theorem exists_split (data : List α) : ∃ entries rest, code.Split data entries rest := by
  induction hn : data.length using Nat.strongRecOn generalizing data with
  | ind n ih =>
      by_cases hbegins : code.Begins data
      · rcases hbegins with ⟨e, more, rfl⟩
        have hpos := code.length_write_pos e
        rw [List.length_append] at hn
        rcases ih more.length (by omega) more rfl with ⟨entries, rest, h⟩
        exact ⟨e :: entries, rest, code.split_cons h e⟩
      · exact ⟨[], data, code.split_nil hbegins⟩

theorem split_unique {data : List α} {entries entries' : List E} {rest rest' : List α}
    (h : code.Split data entries rest) (h' : code.Split data entries' rest') :
    entries = entries' ∧ rest = rest' := by
  induction entries generalizing data entries' with
  | nil =>
      cases entries' with
      | nil => exact ⟨rfl, h.eq.symm.trans h'.eq⟩
      | cons e entries' =>
          -- the remainder of the first split begins with `e`
          have heq := h.eq.symm.trans h'.eq
          rw [writeAll_nil, List.nil_append, writeAll_cons, List.append_assoc] at heq
          exact absurd ⟨e, _, heq⟩ h.cut
  | cons e entries ih =>
      cases entries' with
      | nil =>
          have heq := h'.eq.symm.trans h.eq
          rw [writeAll_nil, List.nil_append, writeAll_cons, List.append_assoc] at heq
          exact absurd ⟨e, _, heq⟩ h'.cut
      | cons e' entries' =>
          have heq := h.eq.symm.trans h'.eq
          rw [writeAll_cons, writeAll_cons, List.append_assoc, List.append_assoc] at heq
          rcases code.write_append_inj heq with ⟨rfl, htail⟩
          rcases ih ⟨rfl, h.cut⟩ ⟨htail, h'.cut⟩ with ⟨rfl, hrest⟩
          exact ⟨rfl, hrest⟩

/-- Every stream is split in exactly one way. -/
theorem exists_unique_split (data : List α) :
    ∃! split : List E × List α, code.Split data split.1 split.2 := by
  rcases code.exists_split data with ⟨entries, rest, h⟩
  refine ⟨(entries, rest), h, ?_⟩
  rintro ⟨entries', rest'⟩ h'
  rcases code.split_unique h' h with ⟨rfl, rfl⟩
  rfl

/-! ## The loop -/

/-- The loop that reads entries until there is none. -/
def readAll (data : List α) : List E :=
  match _hread : code.read data with
  | none => []
  | some (e, rest) => e :: readAll rest
termination_by data.length
decreasing_by
  have hpos := code.length_write_pos e
  rw [code.write_of_read _hread, List.length_append]
  omega

theorem readAll_of_not_begins {data : List α} (h : ¬ code.Begins data) :
    code.readAll data = [] := by
  rw [readAll]
  split
  · rfl
  · next e rest hread => exact absurd ⟨e, rest, code.write_of_read hread⟩ h

theorem readAll_write (e : E) (rest : List α) :
    code.readAll (code.write e ++ rest) = e :: code.readAll rest := by
  rw [readAll]
  split
  · next hread =>
      rw [code.read_write] at hread
      cases hread
  · next e' rest' hread =>
      rw [code.read_write] at hread
      cases hread
      rfl

theorem readAll_of_split {data : List α} {entries : List E} {rest : List α}
    (h : code.Split data entries rest) : code.readAll data = entries := by
  rw [h.eq]
  induction entries generalizing data with
  | nil => exact code.readAll_of_not_begins h.cut
  | cons e entries ih =>
      rw [writeAll_cons, List.append_assoc, readAll_write, ih ⟨rfl, h.cut⟩]

/-! ## Cutting a stream of entries -/

/-- Before its last unit an entry is not whole. -/
theorem not_begins_take {e : E} {n : ℕ} (h : n < (code.write e).length) (rest : List α) :
    ¬ code.Begins ((code.write e ++ rest).take n) := by
  rintro ⟨e', rest', heq⟩
  have hall : code.write e ++ rest =
      code.write e' ++ (rest' ++ (code.write e ++ rest).drop n) := by
    rw [← List.append_assoc, ← heq, List.take_append_drop]
  rcases code.write_append_inj hall with ⟨rfl, -⟩
  have hlength := congrArg List.length heq
  simp only [List.length_take, List.length_append] at hlength
  omega

/-- The first `k` of the entries are the ones that are whole in the first `n`
units. -/
structure WholeBefore (entries : List E) (n k : ℕ) : Prop where
  le : k ≤ entries.length
  whole : (code.writeAll (entries.take k)).length ≤ n
  last : ∀ j ≤ entries.length, (code.writeAll (entries.take j)).length ≤ n → j ≤ k

/-- A cut leaves the entries that are whole before it. -/
theorem split_take (entries : List E) (n : ℕ) :
    ∃ k rest, code.WholeBefore entries n k ∧
      code.Split ((code.writeAll entries).take n) (entries.take k) rest := by
  induction entries generalizing n with
  | nil =>
      refine ⟨0, [], ⟨Nat.le_refl 0, by simp, fun j hj _ => hj⟩, ?_⟩
      rw [writeAll_nil, List.take_nil, List.take_nil]
      exact code.split_nil code.not_begins_nil
  | cons e entries ih =>
      by_cases hfits : (code.write e).length ≤ n
      · -- the first entry is whole, the others are cut at what is left of `n`
        rcases ih (n - (code.write e).length) with ⟨k, rest, hwhole, hsplit⟩
        refine ⟨k + 1, rest, ⟨?_, ?_, ?_⟩, ?_⟩
        · have hle := hwhole.le
          simpa using hle
        · have hlength := hwhole.whole
          rw [List.take_succ_cons, writeAll_cons, List.length_append]
          omega
        · intro j hj hlength
          cases j with
          | zero => omega
          | succ j =>
              rw [List.take_succ_cons, writeAll_cons, List.length_append] at hlength
              have hlast := hwhole.last j (by simpa using hj) (by omega)
              omega
        · rw [writeAll_cons, List.take_append, List.take_of_length_le hfits, List.take_succ_cons]
          exact code.split_cons hsplit e
      · refine ⟨0, (code.write e ++ code.writeAll entries).take n,
          ⟨Nat.zero_le _, by simp, ?_⟩, ?_⟩
        · intro j hj hlength
          cases j with
          | zero => exact Nat.le_refl 0
          | succ j =>
              rw [List.take_succ_cons, writeAll_cons, List.length_append] at hlength
              omega
        · rw [writeAll_cons, List.take_zero]
          exact code.split_nil (code.not_begins_take (by omega) _)

end EntryCode
