import HobbitSynchrony.Lib.FixedWidth
import HobbitSynchrony.ProcessAnalyzer

/-! # Typed reads and writes

`HobbitGameManager/ProcessAnalyzerTypeWrapped.h` on a little-endian host, for the
bits of values of any width. A single value and a vector of values take
different overloads of `convertToUint8Vector`; the one for vectors exchanges the
bytes of every element, because its parameter `inputBigEndian` defaults to true
and `writeData` does not give it.

* `convertToUint8Vector`, `convertVectorToUint8Vector`, `convertToType`,
  `convertToVector`: the conversions;
* `readVector_writeVector`: a vector comes back with the bytes of every element
  exchanged;
* `typed_access_round_trips_iff`: when values and vectors come back.
-/

namespace HobbitSynchrony

open FixedWidth

namespace ProcessAnalyzerTypeWrapped

variable {n : ℕ}

/-- `swapBytes`. -/
def swapBytes (value : Bits n) : Bits n := decode (encode value : List UInt8).reverse

/-- `convertToUint8Vector` of a value. -/
def convertToUint8Vector (value : Bits n) : List UInt8 := encode value

/-- `convertToUint8Vector` of a vector. -/
def convertVectorToUint8Vector (vec : List (Bits n)) (inputBigEndian : Bool) : List UInt8 :=
  vec.flatMap fun num => encode (if inputBigEndian then swapBytes num else num)

/-- `convertToVector`. -/
def convertToVector (n : ℕ) (data : List UInt8) : List (Bits n) :=
  (List.range (data.length / n)).map fun i => decode ((data.drop (n * i)).take n)

/-- What the host is found to be by `convertToType`. -/
def isLittleEndian : Bool := true

/-- `convertToType`; `none` if it throws. -/
def convertToType (n : ℕ) (data : List UInt8) (targetLittleEndian : Bool) : Option (Bits n) :=
  if data.length < n then none
  else
    let result : Bits n := decode (data.take n)
    some (if isLittleEndian != targetLittleEndian then swapBytes result else result)

/-- `writeData` of a value. -/
def writeData (o : CallOutcomes) (process : Option ℕ) (address : ℕ) (data : Bits n)
    (m : ProcessMemory) : ProcessMemory :=
  ProcessAnalyzer.writeData o process address (convertToUint8Vector data) m

/-- `writeData` of a vector, with the default of `inputBigEndian`. -/
def writeVector (o : CallOutcomes) (process : Option ℕ) (address : ℕ) (data : List (Bits n))
    (m : ProcessMemory) : ProcessMemory :=
  ProcessAnalyzer.writeData o process address (convertVectorToUint8Vector data true) m

/-- `readData` of a value, with the default of `targetLittleEndian`. -/
def readData (n : ℕ) (o : CallOutcomes) (process : Option ℕ) (address : ℕ) (m : ProcessMemory) :
    Option (Bits n) × ProcessMemory :=
  let (data, m) := ProcessAnalyzer.readData o process address n m
  (convertToType n data true, m)

/-- `readData` of a vector. -/
def readVector (n : ℕ) (o : CallOutcomes) (process : Option ℕ) (address size : ℕ)
    (m : ProcessMemory) : List (Bits n) × ProcessMemory :=
  let (data, m) := ProcessAnalyzer.readData o process address (size * n) m
  (convertToVector n data, m)

/-! ## Exchanged bytes -/

/-- The bytes are in the other order. -/
theorem encode_swapBytes (value : Bits n) :
    (encode (swapBytes value) : List UInt8) = (encode value).reverse :=
  encode_decode_bits (by rw [List.length_reverse, length_encode])

/-- A value is left as it is exactly if its bytes read the same in both orders. -/
theorem swapBytes_eq_self_iff {value : Bits n} :
    swapBytes value = value ↔ (encode value : List UInt8).reverse = encode value := by
  constructor
  · intro h
    rw [← encode_swapBytes, h]
  · intro h
    unfold swapBytes
    rw [h, decode_encode]

/-- Single bytes are. -/
theorem swapBytes_byte (value : Bits 1) : swapBytes value = value := by
  rw [swapBytes_eq_self_iff]
  rcases List.length_eq_one_iff.1 (length_encode value : (encode value : List UInt8).length = 1)
    with ⟨b, hb⟩
  rw [hb, List.reverse_singleton]

/-! ## Vectors -/

theorem convertVectorToUint8Vector_true (vec : List (Bits n)) :
    convertVectorToUint8Vector vec true = (vec.map swapBytes).flatMap fun num => encode num := by
  unfold convertVectorToUint8Vector
  rw [List.flatMap_map]
  rfl

/-- Every element takes `n` bytes. -/
theorem length_flatMap_encode (vec : List (Bits n)) :
    (vec.flatMap fun num => (encode num : List UInt8)).length = vec.length * n := by
  induction vec with
  | nil => simp
  | cons num vec ih =>
      rw [List.flatMap_cons, List.length_append, length_encode, ih, List.length_cons,
        Nat.succ_mul, Nat.add_comm]

/-- The elements are found in their bytes again. -/
theorem convertToVector_flatMap (hn : 0 < n) (vec : List (Bits n)) :
    convertToVector n (vec.flatMap fun num => encode num) = vec := by
  unfold convertToVector
  rw [length_flatMap_encode, Nat.mul_div_cancel _ hn]
  induction vec with
  | nil => rfl
  | cons num vec ih =>
      have hlen : (encode num : List UInt8).length = n := length_encode num
      rw [List.length_cons, List.range_succ_eq_map, List.map_cons, List.map_map, List.flatMap_cons]
      congr 1
      · rw [Nat.mul_zero, List.drop_zero, List.take_left' hlen, decode_encode]
      · -- behind the first element are the bytes of the others
        refine Eq.trans (List.map_congr_left fun i _ => ?_) ih
        rw [Function.comp_apply, Nat.mul_succ, Nat.add_comm, ← List.drop_drop,
          List.drop_left' hlen]

/-- The vector that is read has the bytes of every element exchanged. -/
theorem readVector_writeVector (hn : 0 < n) {o o' : CallOutcomes} (ho : o.Succeed)
    (ho' : o'.Succeed) (handle address : ℕ) (xs : List (Bits n)) (m : ProcessMemory) :
    (readVector n o' (some handle) address xs.length
      (writeVector o (some handle) address xs m)).1 = xs.map swapBytes := by
  have hlen : (convertVectorToUint8Vector xs true).length = xs.length * n := by
    rw [convertVectorToUint8Vector_true, length_flatMap_encode, List.length_map]
  have hdata := ProcessAnalyzer.readData_writeData ho ho' handle address
    (convertVectorToUint8Vector xs true) m
  rw [hlen] at hdata
  have hread : (readVector n o' (some handle) address xs.length
      (writeVector o (some handle) address xs m)).1 =
        convertToVector n (convertVectorToUint8Vector xs true) := by
    rw [← hdata]
    rfl
  rw [hread, convertVectorToUint8Vector_true, convertToVector_flatMap hn]

/-- A vector of bytes is written as it is, as the overload of `ProcessAnalyzer`
for `uint8_t` writes it. -/
theorem writeVector_bytes (o : CallOutcomes) (process : Option ℕ) (address : ℕ)
    (data : List (Bits 1)) (m : ProcessMemory) :
    writeVector o process address data m =
      ProcessAnalyzer.writeData o process address (data.flatMap fun num => encode num) m := by
  have hswap : data.map swapBytes = data := List.map_id'' swapBytes_byte data
  unfold writeVector
  rw [convertVectorToUint8Vector_true, hswap]

/-! ## Round trip -/

/-- A value is read as it was written. -/
theorem readData_writeData {o o' : CallOutcomes} (ho : o.Succeed) (ho' : o'.Succeed)
    (handle address : ℕ) (value : Bits n) (m : ProcessMemory) :
    (readData n o' (some handle) address (writeData o (some handle) address value m)).1 =
      some value := by
  have hlen : (convertToUint8Vector value).length = n := length_encode value
  have hdata := ProcessAnalyzer.readData_writeData ho ho' handle address
    (convertToUint8Vector value) m
  rw [hlen] at hdata
  have hread : (readData n o' (some handle) address
      (writeData o (some handle) address value m)).1 =
        convertToType n (convertToUint8Vector value) true := by
    rw [← hdata]
    rfl
  rw [hread, convertToType, if_neg (by omega), List.take_of_length_le (by omega)]
  simp [isLittleEndian, convertToUint8Vector]

/-- A value comes back, and a vector of values comes back exactly if the bytes of
every element read the same in both orders. -/
theorem typed_access_round_trips_iff (hn : 0 < n) {o o' : CallOutcomes} (ho : o.Succeed)
    (ho' : o'.Succeed) (handle address : ℕ) (v : Bits n) (xs : List (Bits n))
    (m : ProcessMemory) :
    ((readData n o' (some handle) address (writeData o (some handle) address v m)).1 = some v ∧
      (readVector n o' (some handle) address xs.length
        (writeVector o (some handle) address xs m)).1 = xs) ↔
      ∀ x ∈ xs, (encode x : List UInt8).reverse = encode x := by
  rw [readVector_writeVector hn ho ho']
  constructor
  · rintro ⟨-, hxs⟩ x hx
    rw [← swapBytes_eq_self_iff]
    exact List.map_inj_left.1 (hxs.trans (List.map_id xs).symm) x hx
  · intro h
    refine ⟨readData_writeData ho ho' handle address v m, ?_⟩
    refine (List.map_congr_left fun x hx => ?_).trans (List.map_id xs)
    exact swapBytes_eq_self_iff.2 (h x hx)

/-- Memory of zeros in pages that are readable and writable. -/
def zeroed : ProcessMemory where
  bytes := fun _ => 0
  protection := fun _ => pageReadwrite

/-- Every call succeeds. -/
def allSucceed : CallOutcomes where
  protects := true
  transfers := true
  copied := 0
  restores := true

/-- Four bytes that read the same in both orders come back. -/
theorem palindrome_comes_back :
    (readData 4 allSucceed (some 4) 0x400000
        (writeData allSucceed (some 4) 0x400000 (7 : Bits 4) zeroed)).1 = some 7 ∧
      (readVector 4 allSucceed (some 4) 0x400000 1
        (writeVector allSucceed (some 4) 0x400000 [(0x0a00000a : Bits 4)] zeroed)).1 =
          [0x0a00000a] :=
  (typed_access_round_trips_iff (n := 4) (by decide) ⟨rfl, rfl⟩ ⟨rfl, rfl⟩ 4 0x400000 7
    [0x0a00000a] zeroed).2 (by
      intro x hx
      rw [List.mem_singleton.1 hx]
      decide)

/-- The vector of one 4-byte 1 does not come back. -/
theorem one_comes_back_swapped :
    (readVector 4 allSucceed (some 4) 0x400000 1
      (writeVector allSucceed (some 4) 0x400000 [(1 : Bits 4)] zeroed)).1 ≠ [1] := by
  have hread : (readVector 4 allSucceed (some 4) 0x400000 1
      (writeVector allSucceed (some 4) 0x400000 [(1 : Bits 4)] zeroed)).1 =
        [(1 : Bits 4)].map swapBytes :=
    readVector_writeVector (by decide) ⟨rfl, rfl⟩ ⟨rfl, rfl⟩ 4 0x400000 [1] zeroed
  rw [hread]
  decide

end ProcessAnalyzerTypeWrapped

end HobbitSynchrony
