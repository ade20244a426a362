import HobbitSynchrony.Lib.FixedWidth

/-! # The queue codec and the data labels

`Hobbit Multiplayer/Utility.h`. A game message is a queue of bytes that its
handlers consume from the front. Handlers that throw leave behind whatever
they did before the throw, so they are computations of `EStateM`: a thrown
error comes with the state at the throw.
-/

namespace HobbitSynchrony

/-- What ends a handler before its end. -/
inductive GameError where
  /-- `std::runtime_error` of `convertQueueToType`. -/
  | notEnoughElements
  /-- `std::out_of_range` of `vector::at`. -/
  | outOfRange
  /-- `pop` of an empty queue. -/
  | popEmpty
deriving DecidableEq, Repr

/-- `convertQueueToType<T>`. -/
def convertQueueToType {B : Type} (T : Type) {n : ℕ} [FixedWidth B T n] :
    EStateM GameError (List B) T := fun myQueue =>
  if myQueue.length < n then .error .notEnoughElements myQueue
  else .ok (FixedWidth.decode (myQueue.take n)) (myQueue.drop n)

/-- `pushTypeToVector`. -/
def pushTypeToVector {B T : Type} {n : ℕ} [FixedWidth B T n] (value : T) (myVector : List B) :
    List B :=
  myVector ++ FixedWidth.encode value

/-- `queue::pop`. -/
def popQueue {B : Type} : EStateM GameError (List B) Unit := fun myQueue =>
  match myQueue with
  | [] => .error .popEmpty []
  | _ :: rest => .ok () rest

/-- `DataLabel`. A cast from a byte can also give a value the enumeration does
not name. -/
inductive DataLabel where
  | server
  | connectedPlayerSnap
  | connectedPlayerLevel
  | enemiesHealth
  | inventory
  | other (value : UInt8)
deriving DecidableEq, Repr

/-- `static_cast<DataLabel>`. -/
def DataLabel.ofByte (b : UInt8) : DataLabel :=
  match b with
  | 0 => .server
  | 1 => .connectedPlayerSnap
  | 2 => .connectedPlayerLevel
  | 3 => .enemiesHealth
  | 4 => .inventory
  | b => .other b

/-- `static_cast<uint8_t>` of a label. -/
def DataLabel.toByte : DataLabel → UInt8
  | .server => 0
  | .connectedPlayerSnap => 1
  | .connectedPlayerLevel => 2
  | .enemiesHealth => 3
  | .inventory => 4
  | .other b => b

/-- `Vector3`. -/
structure Vector3 (F : Type) where
  x : F
  y : F
  z : F
deriving DecidableEq, Repr

/-! ## The two outcomes of a conversion -/

theorem convertQueueToType_ok {B T : Type} {n : ℕ} [FixedWidth B T n] {q : List B}
    (h : n ≤ q.length) :
    convertQueueToType T q = .ok (FixedWidth.decode (q.take n)) (q.drop n) := by
  simp [convertQueueToType, Nat.not_lt.2 h]

theorem convertQueueToType_error {B T : Type} {n : ℕ} [FixedWidth B T n] {q : List B}
    (h : q.length < n) : convertQueueToType T q = .error .notEnoughElements q := by
  simp [convertQueueToType, h]

/-- A pushed value is read back, and what follows it is left in the queue. -/
theorem convertQueueToType_encode {B T : Type} {n : ℕ} [FixedWidth B T n] (value : T)
    (rest : List B) :
    convertQueueToType T (FixedWidth.encode value ++ rest) = .ok value rest := by
  have hlen : (FixedWidth.encode value : List B).length = n := FixedWidth.length_encode value
  rw [convertQueueToType_ok (by simp [hlen]), List.take_left' hlen, List.drop_left' hlen,
    FixedWidth.decode_encode]

end HobbitSynchrony
