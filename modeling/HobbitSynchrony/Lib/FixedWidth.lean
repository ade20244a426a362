import Mathlib.Data.List.Basic
import Mathlib.Data.Nat.ModEq
import Mathlib.Tactic.Ring
import Mathlib.Tactic.NormNum

/-! # Fixed-width values in byte storage

Values of a fixed number of bytes, and the storage they are put in. The type
`B` of the bytes is a parameter: `UInt8` for real storage, `Cell F` for
storage that can also hold numbers of a type `F` too large for any fixed
number of real bytes (an exact number kept where the program keeps a float).

* `leBytes`, `leNat`: little-endian bytes of a natural number, and back;
* `byteSwap16`, `byteSwap32`: the same value in the other byte order;
* `ByteLike B`: `B` can hold any plain byte;
* `FixedWidth B T n`: a `T` is stored in `n` bytes and read back unchanged;
* `Bits n`: the bits of any value of `n` bytes, stored in little-endian order.
-/

/-! ## Little-endian naturals -/

namespace LittleEndian

/-- The `w` little-endian bytes of `n`; higher bits are dropped. -/
def leBytes : ℕ → ℕ → List UInt8
  | 0, _ => []
  | w + 1, n => UInt8.ofNat n :: leBytes w (n / 256)

/-- The natural number with the given little-endian bytes. -/
def leNat : List UInt8 → ℕ
  | [] => 0
  | b :: bs => b.toNat + 256 * leNat bs

@[simp] theorem length_leBytes (w n : ℕ) : (leBytes w n).length = w := by
  induction w generalizing n with
  | zero => rfl
  | succ w ih => simp [leBytes, ih]

theorem leNat_leBytes (w n : ℕ) : leNat (leBytes w n) = n % 256 ^ w := by
  induction w generalizing n with
  | zero => simp [leBytes, leNat, Nat.mod_one]
  | succ w ih =>
      -- the lowest byte, and the others above it
      have hb : (UInt8.ofNat n).toNat = n % 256 := by simp
      rw [leBytes, leNat, ih, hb, pow_succ', Nat.mod_mul]

theorem leBytes_leNat (bs : List UInt8) : leBytes bs.length (leNat bs) = bs := by
  induction bs with
  | nil => rfl
  | cons b bs ih =>
      have hb : b.toNat < 256 := b.toNat_lt
      have hdiv : (b.toNat + 256 * leNat bs) / 256 = leNat bs := by omega
      rw [List.length_cons, leBytes, leNat, hdiv, ih]
      simp

theorem leNat_lt (bs : List UInt8) : leNat bs < 256 ^ bs.length := by
  induction bs with
  | nil => simp [leNat]
  | cons b bs ih =>
      have hb : b.toNat < 256 := b.toNat_lt
      rw [leNat, List.length_cons, pow_succ]
      omega

end LittleEndian

open LittleEndian

/-! ## Byte order -/

/-- The 16-bit value with the two bytes exchanged. -/
def byteSwap16 (x : UInt16) : UInt16 := UInt16.ofNat (leNat (leBytes 2 x.toNat).reverse)

/-- The 32-bit value with the four bytes in the other order. -/
def byteSwap32 (x : UInt32) : UInt32 := UInt32.ofNat (leNat (leBytes 4 x.toNat).reverse)

/-- Reversing the bytes of a `w`-byte number twice gives it back. -/
theorem leNat_reverse_reverse {w n : ℕ} (h : n < 256 ^ w) :
    leNat (leBytes w (leNat (leBytes w n).reverse)).reverse = n := by
  have hrev : leBytes w (leNat (leBytes w n).reverse) = (leBytes w n).reverse := by
    have h' := leBytes_leNat (leBytes w n).reverse
    rwa [List.length_reverse, length_leBytes] at h'
  rw [hrev, List.reverse_reverse, leNat_leBytes, Nat.mod_eq_of_lt h]

theorem byteSwap16_byteSwap16 (x : UInt16) : byteSwap16 (byteSwap16 x) = x := by
  have hx : x.toNat < 256 ^ 2 := x.toNat_lt
  have hlt := leNat_lt (leBytes 2 x.toNat).reverse
  -- two bytes hold less than `2 ^ 16`: the conversion in between is exact
  have hmod : leNat (leBytes 2 x.toNat).reverse % 2 ^ 16 = leNat (leBytes 2 x.toNat).reverse :=
    Nat.mod_eq_of_lt (by simpa using hlt)
  rw [byteSwap16, byteSwap16, UInt16.toNat_ofNat', hmod, leNat_reverse_reverse hx]
  simp

theorem byteSwap32_byteSwap32 (x : UInt32) : byteSwap32 (byteSwap32 x) = x := by
  have hx : x.toNat < 256 ^ 4 := x.toNat_lt
  have hlt := leNat_lt (leBytes 4 x.toNat).reverse
  -- four bytes hold less than `2 ^ 32`: the conversion in between is exact
  have hmod : leNat (leBytes 4 x.toNat).reverse % 2 ^ 32 = leNat (leBytes 4 x.toNat).reverse :=
    Nat.mod_eq_of_lt (by simpa using hlt)
  rw [byteSwap32, byteSwap32, UInt32.toNat_ofNat', hmod, leNat_reverse_reverse hx]
  simp

/-! ## Storage -/

universe u v

/-- Storage units that can hold any byte. -/
class ByteLike (B : Type u) where
  ofByte : UInt8 → B
  toByte : B → UInt8
  toByte_ofByte : ∀ b, toByte (ofByte b) = b

attribute [simp] ByteLike.toByte_ofByte

instance : ByteLike UInt8 where
  ofByte := id
  toByte := id
  toByte_ofByte := fun _ => rfl

/-- A `T` takes `n` storage units and is read back as it was stored. -/
class FixedWidth (B : Type u) (T : Type v) (n : outParam ℕ) where
  encode : T → List B
  decode : List B → T
  length_encode : ∀ v, (encode v).length = n
  decode_encode : ∀ v, decode (encode v) = v

attribute [simp] FixedWidth.length_encode FixedWidth.decode_encode

namespace FixedWidth

variable {B : Type u} [ByteLike B]

/-- Bytes stored as they are. -/
def ofBytes (bs : List UInt8) : List B := bs.map ByteLike.ofByte

/-- The bytes a stretch of storage is read as. -/
def toBytes (bs : List B) : List UInt8 := bs.map ByteLike.toByte

@[simp] theorem toBytes_ofBytes (bs : List UInt8) : toBytes (ofBytes bs : List B) = bs := by
  induction bs with
  | nil => rfl
  | cons b bs ih => simpa [toBytes, ofBytes] using ih

@[simp] theorem length_ofBytes (bs : List UInt8) : (ofBytes bs : List B).length = bs.length := by
  simp [ofBytes]

instance : FixedWidth B UInt8 1 where
  encode v := [ByteLike.ofByte v]
  decode bs := match bs with
    | b :: _ => ByteLike.toByte b
    | [] => 0
  length_encode _ := rfl
  decode_encode v := by simp

instance : FixedWidth B Int8 1 where
  encode v := [ByteLike.ofByte v.toUInt8]
  decode bs := match bs with
    | b :: _ => (ByteLike.toByte b).toInt8
    | [] => 0
  length_encode _ := rfl
  decode_encode v := by simp

instance : FixedWidth B UInt32 4 where
  encode v := ofBytes (leBytes 4 v.toNat)
  decode bs := UInt32.ofNat (leNat (toBytes bs))
  length_encode v := by simp
  decode_encode v := by simp [leNat_leBytes]

instance : FixedWidth B UInt64 8 where
  encode v := ofBytes (leBytes 8 v.toNat)
  decode bs := UInt64.ofNat (leNat (toBytes bs))
  length_encode v := by simp
  decode_encode v := by simp [leNat_leBytes]

/-- The bits of a value of `n` bytes. -/
abbrev Bits (n : ℕ) : Type := BitVec (8 * n)

instance (n : ℕ) : FixedWidth B (Bits n) n where
  encode v := ofBytes (leBytes n v.toNat)
  decode bs := BitVec.ofNat (8 * n) (leNat (toBytes bs))
  length_encode v := by simp
  decode_encode v := by
    have hlt : v.toNat < 256 ^ n := by
      rw [show 256 = 2 ^ 8 from rfl, ← pow_mul]
      exact v.isLt
    rw [toBytes_ofBytes, leNat_leBytes, Nat.mod_eq_of_lt hlt, BitVec.ofNat_toNat,
      BitVec.setWidth_eq]

/-- Any `n` bytes are those of a value. -/
theorem encode_decode_bits {n : ℕ} {bs : List UInt8} (h : bs.length = n) :
    FixedWidth.encode (FixedWidth.decode bs : Bits n) = bs := by
  have hbytes : toBytes bs = bs := List.map_id bs
  have hlt : leNat bs < 2 ^ (8 * n) := by
    have hlt := leNat_lt bs
    rw [h] at hlt
    rw [pow_mul]
    exact hlt
  have hdecode : (BitVec.ofNat (8 * n) (leNat (toBytes bs))).toNat = leNat bs := by
    rw [hbytes, BitVec.toNat_ofNat, Nat.mod_eq_of_lt hlt]
  have hencode : (FixedWidth.encode (FixedWidth.decode bs : Bits n) : List UInt8) =
      (leBytes n (BitVec.ofNat (8 * n) (leNat (toBytes bs))).toNat).map id := rfl
  rw [hencode, hdecode, List.map_id, ← h, leBytes_leNat]

end FixedWidth

/-! ## Exact numbers in storage -/

/-- Storage for exact numbers: a plain byte, or one of the four parts of a
number. -/
inductive Cell (F : Type u) where
  | byte (b : UInt8)
  | part (x : F) (i : Fin 4)
deriving DecidableEq, Repr

namespace Cell

variable {F : Type u}

/-- A part of a number has no byte value of its own; it reads as 0. -/
instance : ByteLike (Cell F) where
  ofByte := Cell.byte
  toByte c := match c with
    | byte b => b
    | part _ _ => 0
  toByte_ofByte _ := rfl

/-- Four parts hold a number; storage that holds no number reads as 0. -/
instance [Zero F] : FixedWidth (Cell F) F 4 where
  -- the parts carry the whole number; the first one is enough to read it
  encode x := [part x 0, part x 1, part x 2, part x 3]
  decode cs := match cs with
    | part x _ :: _ => x
    | _ => 0
  length_encode _ := rfl
  decode_encode _ := rfl

end Cell
