import HobbitSynchrony.Utility

/-! # Sequences of values in a queue

The game messages are written with one `pushTypeToVector` after another and
taken apart with one `convertQueueToType` after another. Here are both over
sequences of values of mixed types, for any family `T` of fixed-width types.

* `pushTypesToVector`, `convertQueueToTypes`: the sequences;
* `convertQueueToTypes_pushed`: the values come back and what follows them is
  left;
* `queue_codec_composes`: the same for the bits of values of any widths, and
  what a read does at a shortfall.
-/

namespace HobbitSynchrony

open FixedWidth

section Sequence

variable {B ι : Type} {T : ι → Type} {n : ι → ℕ} [∀ i, FixedWidth B (T i) (n i)]

/-- `pushTypeToVector` of each value in order. -/
def pushTypesToVector (values : List (Σ i, T i)) (myVector : List B) : List B :=
  values.foldl (fun myVector value => pushTypeToVector value.2 myVector) myVector

variable (T) in
/-- `convertQueueToType` of each type in order. -/
def convertQueueToTypes : List ι → EStateM GameError (List B) (List (Σ i, T i))
  | [] => return []
  | i :: types => do
    let value ← convertQueueToType (T i)
    let values ← convertQueueToTypes types
    return ⟨i, value⟩ :: values

/-- The values stand one behind the other, with nothing between them. -/
theorem pushTypesToVector_eq (values : List (Σ i, T i)) (myVector : List B) :
    pushTypesToVector values myVector =
      myVector ++ values.flatMap fun value => FixedWidth.encode value.2 := by
  unfold pushTypesToVector
  induction values generalizing myVector with
  | nil => simp
  | cons value values ih =>
      rw [List.foldl_cons, ih, pushTypeToVector, List.flatMap_cons, List.append_assoc]

/-- The values are read back, and what follows them is left in the queue. -/
theorem convertQueueToTypes_pushed (values : List (Σ i, T i)) (rest : List B) :
    convertQueueToTypes T (values.map Sigma.fst) (pushTypesToVector values [] ++ rest) =
      .ok values rest := by
  rw [pushTypesToVector_eq, List.nil_append]
  induction values with
  | nil => rfl
  | cons value values ih =>
      -- one value is read, and the queue goes on with the bytes of the others
      have hvalue := convertQueueToType_encode value.2
        ((values.flatMap fun value => FixedWidth.encode value.2) ++ rest)
      rw [List.map_cons, List.flatMap_cons, List.append_assoc, convertQueueToTypes]
      simp only [bind, EStateM.bind, hvalue, ih]
      rfl

end Sequence

/-- Values of any widths, pushed in order and read in order, come back and leave
what follows them; a read of more bytes than there are throws and takes none. -/
theorem queue_codec_composes :
    (∀ (values : List (Σ n, Bits n)) (trailer : List UInt8),
      convertQueueToTypes Bits (values.map Sigma.fst) (pushTypesToVector values [] ++ trailer) =
        .ok values trailer) ∧
    ∀ (n : ℕ) (myQueue : List UInt8), myQueue.length < n →
      convertQueueToType (Bits n) myQueue = .error .notEnoughElements myQueue := by
  constructor
  · intro values trailer
    exact convertQueueToTypes_pushed values trailer
  · intro n myQueue hshort
    exact convertQueueToType_error hshort

/-- Widths 1, 8 and 4 in front of two more bytes, and three bytes of four. -/
theorem queue_codec_mixed :
    convertQueueToTypes Bits [1, 8, 4]
        (pushTypesToVector
          ([⟨1, 0xff#8⟩, ⟨8, 0x0102030405060708#64⟩, ⟨4, 7#32⟩] : List (Σ n, Bits n)) [] ++
            [9, 10]) =
      .ok [⟨1, 0xff#8⟩, ⟨8, 0x0102030405060708#64⟩, ⟨4, 7#32⟩] ([9, 10] : List UInt8) ∧
    convertQueueToType (Bits 4) ([1, 2, 3] : List UInt8) = .error .notEnoughElements [1, 2, 3] :=
  ⟨queue_codec_composes.1 [⟨1, 0xff#8⟩, ⟨8, 0x0102030405060708#64⟩, ⟨4, 7#32⟩] [9, 10],
    queue_codec_composes.2 4 [1, 2, 3] (by decide)⟩

end HobbitSynchrony
