import Mathlib.Algebra.Group.Nat.Defs
import Mathlib.Data.List.Basic

/-! # Hexadecimal strings and the crypto functions

`NetworkUtilities/WinCrypto.h` and `WinCrypto.cpp`: the two conversions between
bytes and hexadecimal digits. The functions that call the Windows CryptoAPI are
parameters.

* `bytesToHex`, `hexToBytes`: the conversions, the second with its loop over a
  32-bit index;
* `hexToBytes_bytesToHex`: the bytes come back from fewer than `2 ^ 32` digits;
* `exists_bytesToHex`: every hexadecimal text is written for some bytes;
* `hex_coding_bijective`: the conversions are inverse to each other;
* `hexToBytes_long`: the loop does not end on more.
-/

namespace HobbitSynchrony

/-- `std::string`, which holds bytes. -/
abbrev Bytes := List UInt8

/-- The bytes of a text of plain characters. -/
def ascii (s : String) : Bytes := s.toList.map fun c => UInt8.ofNat c.toNat

/-- The functions of namespace `WinCrypto` that a message is encrypted with. -/
structure WinCrypto where
  PublicKey : Type
  PrivateKey : Type
  encryptWithPublicKey : Bytes → PublicKey → Bytes
  decryptWithPrivateKey : Bytes → PrivateKey → Bytes
  aesEncrypt : Bytes → Bytes → Bytes
  aesDecrypt : Bytes → Bytes → Bytes

/-- Decryption with these keys gives back what was encrypted. -/
structure WinCrypto.Inverts (crypto : WinCrypto) (pubKey : crypto.PublicKey)
    (privKey : crypto.PrivateKey) : Prop where
  rsa : ∀ data, crypto.decryptWithPrivateKey (crypto.encryptWithPublicKey data pubKey) privKey =
    data
  aes : ∀ data key, crypto.aesDecrypt (crypto.aesEncrypt data key) key = data

/-! ## Hexadecimal digits -/

/-- The digit `std::hex` writes for a value below 16. -/
def hexDigit (value : ℕ) : UInt8 := UInt8.ofNat (if value < 10 then 48 + value else 87 + value)

/-- `bytesToHex`: two digits for each byte. -/
def bytesToHex (bytes : Bytes) : Bytes :=
  bytes.flatMap fun byte => [hexDigit (byte.toNat / 16), hexDigit (byte.toNat % 16)]

/-- The value of a hexadecimal digit. -/
def hexValue (c : UInt8) : Option ℕ :=
  if 48 ≤ c ∧ c ≤ 57 then some (c.toNat - 48)
  else if 97 ≤ c ∧ c ≤ 102 then some (c.toNat - 87)
  else if 65 ≤ c ∧ c ≤ 70 then some (c.toNat - 55)
  else none

/-- The digits at the front of a string, read after `value`. -/
def hexDigits (value : ℕ) : Bytes → ℕ
  | [] => value
  | c :: rest =>
    match hexValue c with
    | some digit => hexDigits (16 * value + digit) rest
    | none => value

/-- White space for `strtol`. -/
def isSpace (c : UInt8) : Bool := c = 32 || (9 ≤ c && c ≤ 13)

/-- `(char)strtol(s, NULL, 16)` on at most two characters: white space, a sign,
digits. (The digits of `0x` are the one 0.) -/
def strtol16 (s : Bytes) : UInt8 :=
  match s.dropWhile isSpace with
  | 45 :: rest => -UInt8.ofNat (hexDigits 0 rest)
  | 43 :: rest => UInt8.ofNat (hexDigits 0 rest)
  | rest => UInt8.ofNat (hexDigits 0 rest)

/-- The loop of `hexToBytes`; `none` if `fuel` turns were not enough. -/
def hexLoop (hex : Bytes) : ℕ → UInt32 → Bytes → Option Bytes
  | 0, _, _ => none
  | fuel + 1, i, bytes =>
    -- the index is an `unsigned int`, the length is not
    if i.toNat < hex.length then
      hexLoop hex fuel (i + 2) (bytes ++ [strtol16 ((hex.drop i.toNat).take 2)])
    else some bytes

/-- `hexToBytes`. -/
def hexToBytes (fuel : ℕ) (hex : Bytes) : Option Bytes := hexLoop hex fuel 0 []

/-! ## Round trip -/

@[simp] theorem length_bytesToHex (bytes : Bytes) :
    (bytesToHex bytes).length = 2 * bytes.length := by
  unfold bytesToHex
  rw [List.length_flatMap]
  simp [Nat.mul_comm]

theorem bytesToHex_append (bytes bytes' : Bytes) :
    bytesToHex (bytes ++ bytes') = bytesToHex bytes ++ bytesToHex bytes' := by
  unfold bytesToHex
  exact List.flatMap_append

/-- No digit is a line break. -/
theorem newline_notMem_bytesToHex (bytes : Bytes) : 10 ∉ bytesToHex bytes := by
  have hdigit : ∀ value < 16, hexDigit value ≠ 10 := by decide
  unfold bytesToHex
  rw [List.mem_flatMap]
  rintro ⟨byte, -, hmem⟩
  have hbyte : byte.toNat < 256 := byte.toNat_lt
  rcases List.mem_cons.1 hmem with hhigh | hmem
  · exact hdigit (byte.toNat / 16) (by omega) hhigh.symm
  · exact hdigit (byte.toNat % 16) (by omega) (List.mem_singleton.1 hmem).symm

theorem hexValue_hexDigit {value : ℕ} (h : value < 16) :
    hexValue (hexDigit value) = some value := by
  have hall : ∀ value < 16, hexValue (hexDigit value) = some value := by decide
  exact hall value h

/-- The two digits of a byte give the byte. -/
theorem strtol16_digits (byte : UInt8) :
    strtol16 [hexDigit (byte.toNat / 16), hexDigit (byte.toNat % 16)] = byte := by
  have hbyte : byte.toNat < 256 := byte.toNat_lt
  -- a digit is neither white space nor a sign
  have hplain : ∀ value < 16, isSpace (hexDigit value) = false ∧ hexDigit value ≠ 45 ∧
      hexDigit value ≠ 43 := by decide
  have hhigh := hplain (byte.toNat / 16) (by omega)
  have hdigits : strtol16 [hexDigit (byte.toNat / 16), hexDigit (byte.toNat % 16)] =
      UInt8.ofNat (hexDigits 0 [hexDigit (byte.toNat / 16), hexDigit (byte.toNat % 16)]) := by
    unfold strtol16
    rw [List.dropWhile_cons_of_neg (by simp [hhigh.1])]
    split
    next heq => exact absurd (List.cons.inj heq).1 hhigh.2.1
    next heq => exact absurd (List.cons.inj heq).1 hhigh.2.2
    next => trivial
  have hvalue : 16 * (byte.toNat / 16) + byte.toNat % 16 = byte.toNat := Nat.div_add_mod _ _
  rw [hdigits]
  simp [hexDigits, hexValue_hexDigit (show byte.toNat / 16 < 16 by omega),
    hexValue_hexDigit (show byte.toNat % 16 < 16 by omega), hvalue]

/-- The loop, behind the digits of the bytes it has done. -/
theorem hexLoop_bytesToHex (done rest : Bytes) (h : 2 * (done ++ rest).length < 2 ^ 32)
    (fuel : ℕ) (hfuel : rest.length < fuel) :
    hexLoop (bytesToHex (done ++ rest)) fuel (UInt32.ofNat (2 * done.length)) done =
      some (done ++ rest) := by
  induction rest generalizing done fuel with
  | nil =>
      obtain ⟨fuel, rfl⟩ : ∃ k, fuel = k + 1 := ⟨fuel - 1, by simp at hfuel; omega⟩
      rw [List.append_nil] at h ⊢
      have hindex : (UInt32.ofNat (2 * done.length)).toNat = 2 * done.length := by
        rw [UInt32.toNat_ofNat', Nat.mod_eq_of_lt h]
      rw [hexLoop, hindex, length_bytesToHex, if_neg (Nat.lt_irrefl _)]
  | cons byte rest ih =>
      obtain ⟨fuel, rfl⟩ : ∃ k, fuel = k + 1 := ⟨fuel - 1, by simp at hfuel; omega⟩
      rw [List.length_append, List.length_cons] at h
      have hindex : (UInt32.ofNat (2 * done.length)).toNat = 2 * done.length := by
        rw [UInt32.toNat_ofNat', Nat.mod_eq_of_lt (by omega)]
      have hmore : 2 * done.length < (bytesToHex (done ++ byte :: rest)).length := by
        rw [length_bytesToHex, List.length_append, List.length_cons]
        omega
      -- the next two digits are those of `byte`
      have hbyte : ((bytesToHex (done ++ byte :: rest)).drop (2 * done.length)).take 2 =
          [hexDigit (byte.toNat / 16), hexDigit (byte.toNat % 16)] := by
        rw [bytesToHex_append, List.drop_left' (length_bytesToHex done)]
        simp [bytesToHex]
      have hnext : UInt32.ofNat (2 * done.length) + 2 =
          UInt32.ofNat (2 * (done ++ [byte]).length) := by
        rw [List.length_append, List.length_singleton, Nat.mul_add, UInt32.ofNat_add]
        rfl
      have hsplit : done ++ byte :: rest = (done ++ [byte]) ++ rest := by simp
      rw [hexLoop, hindex, if_pos hmore, hbyte, strtol16_digits, hnext, hsplit]
      refine ih (done ++ [byte]) ?_ fuel ?_
      · simp only [List.length_append, List.length_cons, List.length_nil]
        omega
      · rw [List.length_cons] at hfuel
        omega

/-- The bytes come back, if the index does not wrap. -/
theorem hexToBytes_bytesToHex {bytes : Bytes} (h : 2 * bytes.length < 2 ^ 32) {fuel : ℕ}
    (hfuel : bytes.length < fuel) : hexToBytes fuel (bytesToHex bytes) = some bytes :=
  hexLoop_bytesToHex [] bytes h fuel hfuel

/-- A text that `bytesToHex` can write: an even number of digits 0-9 and a-f. -/
structure HexText (hex : Bytes) : Prop where
  even : 2 ∣ hex.length
  digits : ∀ c ∈ hex, (48 ≤ c ∧ c ≤ 57) ∨ (97 ≤ c ∧ c ≤ 102)

/-- A digit 0-9 or a-f is written for its value. -/
theorem exists_hexDigit {c : UInt8} (h : (48 ≤ c ∧ c ≤ 57) ∨ (97 ≤ c ∧ c ≤ 102)) :
    ∃ value < 16, hexDigit value = c := by
  simp only [UInt8.le_iff_toNat_le, UInt8.reduceToNat] at h
  rcases h with ⟨hlow, hhigh⟩ | ⟨hlow, hhigh⟩
  · refine ⟨c.toNat - 48, by omega, ?_⟩
    unfold hexDigit
    rw [if_pos (by omega), Nat.add_sub_cancel' hlow, UInt8.ofNat_toNat]
  · refine ⟨c.toNat - 87, by omega, ?_⟩
    unfold hexDigit
    rw [if_neg (by omega), Nat.add_sub_cancel' (by omega), UInt8.ofNat_toNat]

/-- Two digits are written for one byte. -/
theorem exists_byte_of_digits {high low : ℕ} (hhigh : high < 16) (hlow : low < 16) :
    bytesToHex [UInt8.ofNat (16 * high + low)] = [hexDigit high, hexDigit low] := by
  have hbyte : (UInt8.ofNat (16 * high + low)).toNat = 16 * high + low := by
    rw [UInt8.toNat_ofNat', Nat.mod_eq_of_lt (by omega)]
  have hdiv : (16 * high + low) / 16 = high := by omega
  have hmod : (16 * high + low) % 16 = low := by omega
  rw [bytesToHex, List.flatMap_singleton, hbyte, hdiv, hmod]

/-- Every hexadecimal text is written for some bytes. -/
theorem exists_bytesToHex : ∀ {hex : Bytes}, HexText hex → ∃ bytes, bytesToHex bytes = hex
  | [], _ => ⟨[], rfl⟩
  | [_], h => absurd h.even (by simp)
  | c :: c' :: hex, h => by
      rcases exists_hexDigit (h.digits c (by simp)) with ⟨high, hhigh, rfl⟩
      rcases exists_hexDigit (h.digits c' (by simp)) with ⟨low, hlow, rfl⟩
      have hrest : HexText hex := by
        refine ⟨?_, fun c hc => h.digits c (by simp [hc])⟩
        have heven := h.even
        simp only [List.length_cons] at heven
        omega
      rcases exists_bytesToHex hrest with ⟨bytes, rfl⟩
      refine ⟨UInt8.ofNat (16 * high + low) :: bytes, ?_⟩
      rw [← List.singleton_append, bytesToHex_append, exists_byte_of_digits hhigh hlow]
      rfl

/-- Bytes come back from their text, and a text of fewer than `2 ^ 32` digits
comes back from its bytes. -/
theorem hex_coding_bijective :
    (∀ bytes : Bytes, 2 * bytes.length < 2 ^ 32 → ∀ fuel, bytes.length < fuel →
      hexToBytes fuel (bytesToHex bytes) = some bytes) ∧
    ∀ hex : Bytes, hex.length < 2 ^ 32 → HexText hex → ∀ fuel, hex.length / 2 < fuel →
      ∃ bytes, hexToBytes fuel hex = some bytes ∧ bytesToHex bytes = hex := by
  constructor
  · intro bytes hlen fuel hfuel
    exact hexToBytes_bytesToHex hlen hfuel
  · intro hex hlen htext fuel hfuel
    rcases exists_bytesToHex htext with ⟨bytes, rfl⟩
    rw [length_bytesToHex] at hlen hfuel
    exact ⟨bytes, hexToBytes_bytesToHex hlen (by omega), rfl⟩

/-- A zero byte, a line break and the highest byte, and back from a text. -/
theorem hex_coding_samples :
    hexToBytes 4 (bytesToHex [0, 10, 255]) = some [0, 10, 255] ∧
      ∃ bytes, hexToBytes 3 (ascii "0aff") = some bytes ∧ bytesToHex bytes = ascii "0aff" := by
  have hdigits : (ascii "0aff").all (fun c => (48 ≤ c ∧ c ≤ 57) ∨ (97 ≤ c ∧ c ≤ 102)) = true := by
    decide
  have htext : HexText (ascii "0aff") :=
    ⟨by decide, fun c hc => of_decide_eq_true (List.all_eq_true.1 hdigits c hc)⟩
  exact ⟨hex_coding_bijective.1 [0, 10, 255] (by decide) 4 (by decide),
    hex_coding_bijective.2 (ascii "0aff") (by decide) htext 3 (by decide)⟩

/-- More turns change nothing once the loop has ended. -/
theorem hexLoop_mono {hex : Bytes} {fuel : ℕ} {i : UInt32} {bytes result : Bytes}
    (h : hexLoop hex fuel i bytes = some result) (more : ℕ) :
    hexLoop hex (fuel + more) i bytes = some result := by
  induction fuel generalizing i bytes with
  | zero =>
      rw [hexLoop] at h
      cases h
  | succ fuel ih =>
      rw [Nat.add_right_comm, hexLoop]
      rw [hexLoop] at h
      split at h
      next hmore =>
        rw [if_pos hmore]
        exact ih h
      next hend =>
        rw [if_neg hend]
        exact h

/-- Whatever the loop ends with are the bytes. -/
theorem eq_of_hexToBytes {bytes result : Bytes} (h : 2 * bytes.length < 2 ^ 32) {fuel : ℕ}
    (hresult : hexToBytes fuel (bytesToHex bytes) = some result) : result = bytes := by
  have hmore := hexLoop_mono hresult (bytes.length + 1)
  have hbytes := hexToBytes_bytesToHex h (show bytes.length < fuel + (bytes.length + 1) by omega)
  unfold hexToBytes at hbytes
  exact Option.some.inj (hmore.symm.trans hbytes)

/-- The index never gets past `2 ^ 32` digits. -/
theorem hexToBytes_long {hex : Bytes} (h : 2 ^ 32 ≤ hex.length) (fuel : ℕ) :
    hexToBytes fuel hex = none := by
  have hloop : ∀ i bytes, hexLoop hex fuel i bytes = none := by
    induction fuel with
    | zero =>
        intro i bytes
        rw [hexLoop]
    | succ fuel ih =>
        intro i bytes
        have hi : i.toNat < 2 ^ 32 := i.toNat_lt
        rw [hexLoop, if_pos (by omega)]
        exact ih _ _
  exact hloop 0 []

end HobbitSynchrony
