import HobbitSynchrony.Lib.Pages

/-! # Reads and writes in another process

`HobbitGameManager/ProcessAnalyzer.h`: `readData` and `writeData` make the pages
of a range accessible, copy the bytes, and are meant to give the pages the
protection they had. How the Win32 calls end is an input.

* `virtualProtectEx`, `readProcessMemory`, `writeProcessMemory`: the calls;
* `readData`, `writeData`: the functions;
* `read_write_keep_protection_iff`: when no page is left with another protection.
-/

namespace HobbitSynchrony

open Pages

/-- The memory of the game process: the byte at every address and the protection
of every page. -/
structure ProcessMemory where
  bytes : ℕ → UInt8
  protection : ℕ → UInt32

/-- How the Win32 calls of `readData` or `writeData` end. A copy that fails has
done its first `copied` bytes. -/
structure CallOutcomes where
  protects : Bool
  transfers : Bool
  copied : ℕ
  restores : Bool
deriving DecidableEq, Repr

/-- `PAGE_READWRITE`. -/
def pageReadwrite : UInt32 := 0x04

/-- `PAGE_EXECUTE_READWRITE`. -/
def pageExecuteReadwrite : UInt32 := 0x40

/-- The calls up to the copy succeed. -/
structure CallOutcomes.Succeed (o : CallOutcomes) : Prop where
  protects : o.protects = true
  transfers : o.transfers = true

namespace ProcessMemory

/-- The `size` bytes from an address on. -/
def range (m : ProcessMemory) (address size : ℕ) : List UInt8 :=
  (List.range size).map fun k => m.bytes (address + k)

/-- Bytes put at an address. -/
def put (m : ProcessMemory) (address : ℕ) (data : List UInt8) : ProcessMemory :=
  { m with
    bytes := fun a =>
      if address ≤ a then data[a - address]?.getD (m.bytes a) else m.bytes a }

@[simp] theorem protection_put (m : ProcessMemory) (address : ℕ) (data : List UInt8) :
    (m.put address data).protection = m.protection := rfl

@[simp] theorem length_range (m : ProcessMemory) (address size : ℕ) :
    (m.range address size).length = size := by
  unfold range
  rw [List.length_map, List.length_range]

/-- The bytes that were put are there. -/
theorem range_put (m : ProcessMemory) (address : ℕ) (data : List UInt8) :
    (m.put address data).range address data.length = data := by
  apply List.ext_getElem
  · exact length_range _ _ _
  · intro k hrange hk
    have hget : ((m.put address data).range address data.length)[k] =
        (m.put address data).bytes (address + k) := by
      simp [range]
    have hbyte : (m.put address data).bytes (address + k) =
        data[address + k - address]?.getD (m.bytes (address + k)) :=
      if_pos (Nat.le_add_right address k)
    rw [hget, hbyte, Nat.add_sub_cancel_left, List.getElem?_eq_getElem hk, Option.getD_some]

end ProcessMemory

/-! ## The Win32 calls -/

/-- `VirtualProtectEx`: the old protection of the first page, if the call
succeeds. It fails without a place to put that, and then changes nothing. -/
def virtualProtectEx (succeeds : Bool) (lpAddress dwSize : ℕ) (flNewProtect : UInt32)
    (hasOldProtect : Bool) (m : ProcessMemory) : Option UInt32 × ProcessMemory :=
  if succeeds && hasOldProtect then
    (some (m.protection (pageOf lpAddress)),
      { m with protection := setPages m.protection lpAddress dwSize flNewProtect })
  else (none, m)

/-- `ReadProcessMemory` into a buffer of zeros. -/
def readProcessMemory (succeeds : Bool) (copied : ℕ) (lpBaseAddress nSize : ℕ)
    (m : ProcessMemory) : Bool × List UInt8 :=
  if succeeds then (true, m.range lpBaseAddress nSize)
  else
    (false, (m.range lpBaseAddress (min copied nSize)) ++ List.replicate (nSize - copied) 0)

/-- `WriteProcessMemory`. -/
def writeProcessMemory (succeeds : Bool) (copied : ℕ) (lpBaseAddress : ℕ) (data : List UInt8)
    (m : ProcessMemory) : ProcessMemory :=
  if succeeds then m.put lpBaseAddress data else m.put lpBaseAddress (data.take copied)

namespace ProcessAnalyzer

/-- `ProcessAnalyzer::writeData`; `process` is the handle, or null. -/
def writeData (o : CallOutcomes) (process : Option ℕ) (address : ℕ) (data : List UInt8)
    (m : ProcessMemory) : ProcessMemory :=
  match process with
  | none => m
  | some _ =>
    match virtualProtectEx o.protects address data.length pageExecuteReadwrite true m with
    | (none, m) => m
    | (some oldProtect, m) =>
      let m := writeProcessMemory o.transfers o.copied address data m
      -- the restoring call is given null for the old protection
      (virtualProtectEx o.restores address data.length oldProtect false m).2

/-- `ProcessAnalyzer::readData`. -/
def readData (o : CallOutcomes) (process : Option ℕ) (address bytesSize : ℕ)
    (m : ProcessMemory) : List UInt8 × ProcessMemory :=
  match process with
  | none => (List.replicate bytesSize 0, m)
  | some _ =>
    match virtualProtectEx o.protects address bytesSize pageReadwrite true m with
    | (none, m) => (List.replicate bytesSize 0, m)
    | (some oldProtect, m) =>
      match readProcessMemory o.transfers o.copied address bytesSize m with
      | (false, data) => (data, m)
      | (true, data) =>
        (data, (virtualProtectEx o.restores address bytesSize oldProtect true m).2)

/-! ## The bytes they copy -/

/-- What was written is read. -/
theorem readData_writeData {o o' : CallOutcomes} (ho : o.Succeed) (ho' : o'.Succeed) (handle : ℕ)
    (address : ℕ) (data : List UInt8) (m : ProcessMemory) :
    (readData o' (some handle) address data.length
      (writeData o (some handle) address data m)).1 = data := by
  have hbytes : (writeData o (some handle) address data m).bytes = (m.put address data).bytes := by
    simp [writeData, virtualProtectEx, writeProcessMemory, ho.protects, ho.transfers,
      ProcessMemory.put]
  have hread : (readData o' (some handle) address data.length
      (writeData o (some handle) address data m)).1 =
        (writeData o (some handle) address data m).range address data.length := by
    simp [readData, virtualProtectEx, readProcessMemory, ho'.protects, ho'.transfers,
      ProcessMemory.range]
  have hrange : (writeData o (some handle) address data m).range address data.length =
      (m.put address data).range address data.length := by
    unfold ProcessMemory.range
    rw [hbytes]
  rw [hread, hrange, ProcessMemory.range_put]

/-! ## The protection they leave -/

/-- The functions get as far as changing the protection. -/
def Opens (o : CallOutcomes) (process : Option ℕ) : Prop := process ≠ none ∧ o.protects = true

theorem protects_of_not_opens {o : CallOutcomes} {handle : ℕ} (h : ¬ Opens o (some handle)) :
    o.protects = false := by
  by_contra hprotects
  exact h ⟨by simp, by simpa using hprotects⟩

/-- `writeData` leaves the pages of the range executable and writable. -/
theorem protection_writeData {o : CallOutcomes} {process : Option ℕ} (address : ℕ)
    (data : List UInt8) (m : ProcessMemory) (h : Opens o process) :
    (writeData o process address data m).protection =
      setPages m.protection address data.length pageExecuteReadwrite := by
  rcases h with ⟨hprocess, hprotects⟩
  cases process with
  | none => exact absurd rfl hprocess
  | some handle =>
      cases htransfers : o.transfers <;>
        simp [writeData, virtualProtectEx, writeProcessMemory, hprotects, htransfers]

/-- `writeData` that stops before changes nothing. -/
theorem writeData_of_not_opens {o : CallOutcomes} {process : Option ℕ} (address : ℕ)
    (data : List UInt8) (m : ProcessMemory) (h : ¬ Opens o process) :
    writeData o process address data m = m := by
  cases process with
  | none => rfl
  | some handle =>
      simp [writeData, virtualProtectEx, protects_of_not_opens h]

/-- `readData` gives the pages of the range the protection of the first one, or
leaves them writable if a later call fails. -/
theorem protection_readData {o : CallOutcomes} {process : Option ℕ} (address bytesSize : ℕ)
    (m : ProcessMemory) (h : Opens o process) :
    (readData o process address bytesSize m).2.protection =
      setPages m.protection address bytesSize
        (if o.transfers && o.restores then m.protection (pageOf address) else pageReadwrite) := by
  rcases h with ⟨hprocess, hprotects⟩
  cases process with
  | none => exact absurd rfl hprocess
  | some handle =>
      cases htransfers : o.transfers with
      | false => simp [readData, virtualProtectEx, readProcessMemory, hprotects, htransfers]
      | true =>
          cases hrestores : o.restores <;>
            simp [readData, virtualProtectEx, readProcessMemory, hprotects, htransfers, hrestores]

/-- `readData` that stops before changes nothing. -/
theorem readData_of_not_opens {o : CallOutcomes} {process : Option ℕ} (address bytesSize : ℕ)
    (m : ProcessMemory) (h : ¬ Opens o process) :
    readData o process address bytesSize m = (List.replicate bytesSize 0, m) := by
  cases process with
  | none => rfl
  | some handle =>
      simp [readData, virtualProtectEx, protects_of_not_opens h]

/-- Every page has the protection it had. -/
def KeepsProtection (m m' : ProcessMemory) : Prop :=
  ∀ page, m'.protection page = m.protection page

/-- All pages of a range have this protection. -/
def AllProtected (m : ProcessMemory) (address size : ℕ) (protection : UInt32) : Prop :=
  ∀ page, InPages address size page → m.protection page = protection

/-- One protection for all pages of a range, or no change at all. -/
theorem keepsProtection_iff {m m' : ProcessMemory} {address size : ℕ} {protection : UInt32}
    {opens : Prop} (hset : opens → m'.protection = setPages m.protection address size protection)
    (hsame : ¬ opens → m' = m) :
    KeepsProtection m m' ↔ (opens → AllProtected m address size protection) := by
  have heq : KeepsProtection m m' ↔ m'.protection = m.protection := funext_iff.symm
  rw [heq]
  by_cases hopens : opens
  · rw [hset hopens, setPages_eq_self_iff]
    exact ⟨fun hall _ => hall, fun hall => hall hopens⟩
  · rw [hsame hopens]
    exact iff_of_true rfl fun hopens' => absurd hopens' hopens

/-- Pages that were executable and writable before are what `writeData` leaves
alone. -/
theorem keepsProtection_writeData_iff {o : CallOutcomes} {process : Option ℕ} {address : ℕ}
    {data : List UInt8} {m : ProcessMemory} :
    KeepsProtection m (writeData o process address data m) ↔
      (Opens o process → AllProtected m address data.length pageExecuteReadwrite) :=
  keepsProtection_iff (protection_writeData address data m) (writeData_of_not_opens address data m)

/-- The protection `readData` gives to all pages in the end. -/
def finalProtection (o : CallOutcomes) (address : ℕ) (m : ProcessMemory) : UInt32 :=
  if o.transfers && o.restores then m.protection (pageOf address) else pageReadwrite

/-- Pages that had this protection before are what `readData` leaves alone. -/
theorem keepsProtection_readData_iff {o : CallOutcomes} {process : Option ℕ}
    {address bytesSize : ℕ} {m : ProcessMemory} :
    KeepsProtection m (readData o process address bytesSize m).2 ↔
      (Opens o process → AllProtected m address bytesSize (finalProtection o address m)) := by
  refine keepsProtection_iff (protection_readData address bytesSize m) fun hnotOpens => ?_
  rw [readData_of_not_opens address bytesSize m hnotOpens]

/-- A write keeps the protection exactly if it stops before it changes any or all
its pages were executable and writable. A read keeps it exactly if it stops
before, or all its pages had the protection of the first one and every call
succeeds, or a later call fails and all its pages were readable and writable. -/
theorem read_write_keep_protection_iff (o : CallOutcomes) (process : Option ℕ) (address : ℕ)
    (m : ProcessMemory) :
    (∀ data, KeepsProtection m (writeData o process address data m) ↔
      process = none ∨ o.protects = false ∨
        AllProtected m address data.length pageExecuteReadwrite) ∧
    ∀ bytesSize, KeepsProtection m (readData o process address bytesSize m).2 ↔
      process = none ∨ o.protects = false ∨
        ((o.transfers = true ∧ o.restores = true) ∧
          AllProtected m address bytesSize (m.protection (pageOf address))) ∨
        ((o.transfers = false ∨ o.restores = false) ∧
          AllProtected m address bytesSize pageReadwrite) := by
  constructor
  · intro data
    rw [keepsProtection_writeData_iff, Opens]
    cases process <;> cases o.protects <;> simp
  · intro bytesSize
    rw [keepsProtection_readData_iff, Opens, finalProtection]
    cases process <;> cases o.protects <;> cases o.transfers <;> cases o.restores <;> simp

/-- Pages that are readable and writable, and a page 1025 that is read-only. -/
def twoProtections : ProcessMemory where
  bytes := fun _ => 0
  protection := fun page => if page = 1025 then 0x02 else pageReadwrite

/-- Every call succeeds: one byte written leaves its page executable, and a read
across the two pages makes the read-only one writable. -/
theorem protection_changed :
    ¬ KeepsProtection twoProtections
        (writeData ⟨true, true, 0, true⟩ (some 4) 0x400000 [1] twoProtections) ∧
      ¬ KeepsProtection twoProtections
        (readData ⟨true, true, 0, true⟩ (some 4) 0x400ffe 4 twoProtections).2 := by
  constructor
  · intro hkeeps
    exact absurd (hkeeps 1024) (by decide)
  · intro hkeeps
    exact absurd (hkeeps 1025) (by decide)

end ProcessAnalyzer

end HobbitSynchrony
