import HobbitSynchrony.Lib.AddressSpace

/-! # Access to the game's memory

`HobbitGameManager/HobbitProcessAnalyzer.h`: typed reads and writes in the
game process, and the searches through the game's object stack. Every access that is
asked for is carried out here; the calls that Windows refuses, and what becomes of the
protection of the pages, are in `ProcessAnalyzer`.
-/

namespace HobbitSynchrony

open AddressSpace

/-- `HobbitProcessAnalyzer`: the process handle, the memory behind it, and
where the object stack is. -/
structure HobbitProcessAnalyzer (B : Type) where
  /-- `hobbitProcess` is not null. -/
  isProcessSet : Bool
  memory : Memory B
  objectStackAddress : UInt32
  objectStackSize : UInt32

namespace HobbitProcessAnalyzer

variable {B : Type}

/-- `OBJECT_PTR_SIZE`. -/
def objectPtrSize : UInt32 := 0x14

/-- `readData<T>`. -/
def readData (T : Type) {n : ℕ} [FixedWidth B T n] [OfNat T 0] (p : HobbitProcessAnalyzer B)
    (address : UInt32) : T :=
  if p.isProcessSet then read T p.memory address else 0

/-- `writeData<T>`. -/
def writeData {T : Type} {n : ℕ} [FixedWidth B T n] (p : HobbitProcessAnalyzer B)
    (address : UInt32) (data : T) : HobbitProcessAnalyzer B :=
  if p.isProcessSet then { p with memory := write p.memory address data } else p

/-- The slot addresses of the loop
`for (offset = 0; offset < objectStackSize * OBJECT_PTR_SIZE; offset += OBJECT_PTR_SIZE)`,
whose bound is a 32-bit product. -/
def slots (p : HobbitProcessAnalyzer B) : List UInt32 :=
  (List.range (((p.objectStackSize * objectPtrSize).toNat + 19) / 20)).map fun k =>
    p.objectStackAddress + UInt32.ofNat (20 * k)

variable [ByteLike B]

/-- The object a slot points to, 0 for a free slot. -/
def objAddrs (p : HobbitProcessAnalyzer B) (slot : UInt32) : UInt32 := p.readData UInt32 slot

/-- The GUID of the object at an address. -/
def objGUID (p : HobbitProcessAnalyzer B) (addrs : UInt32) : UInt64 :=
  p.readData UInt64 (addrs + 0x8)

/-- `findGameObjByGUID`. -/
def findGameObjByGUID (p : HobbitProcessAnalyzer B) (guid : UInt64) : UInt32 :=
  if !p.isProcessSet then 0
  else
    -- the loop returns at the first object with the GUID
    (p.slots.findSome? fun slot =>
      if p.objAddrs slot ≠ 0 ∧ p.objGUID (p.objAddrs slot) = guid then some (p.objAddrs slot)
      else none).getD 0

/-- `findGameObjStackByPtrGUID`: the same search, for the slot. -/
def findGameObjStackByPtrGUID (p : HobbitProcessAnalyzer B) (guid : UInt64) : UInt32 :=
  if !p.isProcessSet then 0
  else
    (p.slots.find? fun slot =>
      p.objAddrs slot ≠ 0 ∧ p.objGUID (p.objAddrs slot) = guid).getD 0

/-- `findGameObjByPattern<T>`. -/
def findGameObjByPattern {T : Type} {n : ℕ} [FixedWidth B T n] [OfNat T 0] [DecidableEq T]
    (p : HobbitProcessAnalyzer B) (pattern : T) (shift : UInt32) : UInt32 :=
  if !p.isProcessSet then 0
  else
    (p.slots.findSome? fun slot =>
      if p.objAddrs slot ≠ 0 ∧ p.readData T (p.objAddrs slot + shift) = pattern then
        some (p.objAddrs slot)
      else none).getD 0

/-- `findAllGameObjByPattern<T>`. -/
def findAllGameObjByPattern {T : Type} {n : ℕ} [FixedWidth B T n] [OfNat T 0] [DecidableEq T]
    (p : HobbitProcessAnalyzer B) (pattern : T) (shift : UInt32) : List UInt32 :=
  if !p.isProcessSet then []
  else
    p.slots.filterMap fun slot =>
      if p.objAddrs slot ≠ 0 ∧ p.readData T (p.objAddrs slot + shift) = pattern then
        some (p.objAddrs slot)
      else none

/-! ## Reads after writes -/

section frame

variable {T S : Type} {n k : ℕ} [FixedWidth B T n] [FixedWidth B S k] [OfNat S 0]

omit [ByteLike B] in
@[simp] theorem isProcessSet_writeData (p : HobbitProcessAnalyzer B) (a : UInt32) (x : T) :
    (p.writeData a x).isProcessSet = p.isProcessSet := by
  unfold writeData
  split <;> rfl

omit [ByteLike B] in
@[simp] theorem slots_writeData (p : HobbitProcessAnalyzer B) (a : UInt32) (x : T) :
    (p.writeData a x).slots = p.slots := by
  unfold writeData slots
  split <;> rfl

omit [ByteLike B] in
theorem readData_writeData [OfNat T 0] (p : HobbitProcessAnalyzer B) (a : UInt32) (x : T)
    (hp : p.isProcessSet) (hn : n ≤ 2 ^ 32) : (p.writeData a x).readData T a = x := by
  simp [readData, writeData, hp, read_write _ _ _ hn]

omit [ByteLike B] in
theorem readData_writeData_of_apart {p : HobbitProcessAnalyzer B} {a b : UInt32} {x : T}
    (h : Apart a n b k) : (p.writeData a x).readData S b = p.readData S b := by
  unfold readData writeData
  by_cases hp : p.isProcessSet
  · simp [hp, read_write_of_apart h]
  · simp [hp]

omit [ByteLike B] in
theorem writeData_writeData {R : Type} [FixedWidth B R n] (p : HobbitProcessAnalyzer B)
    (a : UInt32) (x : T) (y : R) : (p.writeData a x).writeData a y = p.writeData a y := by
  unfold writeData
  by_cases hp : p.isProcessSet
  · simp [hp, write_write]
  · simp [hp]

omit [ByteLike B] in
theorem writeData_injective [OfNat T 0] {p : HobbitProcessAnalyzer B} (hp : p.isProcessSet)
    (hn : n ≤ 2 ^ 32) (a : UInt32) {x y : T} (h : p.writeData a x = p.writeData a y) : x = y := by
  rw [← readData_writeData p a x hp hn, h, readData_writeData p a y hp hn]

end frame

/-- A search depends on its test at the listed elements only. -/
theorem findSome?_congr {α β : Type} {f g : α → Option β} {l : List α}
    (h : ∀ a ∈ l, f a = g a) : l.findSome? f = l.findSome? g := by
  induction l with
  | nil => rfl
  | cons a l ih =>
      have hl : l.findSome? f = l.findSome? g := ih fun b hb => h b (List.mem_cons_of_mem _ hb)
      rw [List.findSome?_cons, List.findSome?_cons, h a List.mem_cons_self, hl]

/-- A write that touches no slot and no GUID of a stack object does not change
the result of a search. -/
theorem findGameObjByGUID_writeData {T : Type} {n : ℕ} [FixedWidth B T n]
    {p : HobbitProcessAnalyzer B} {a : UInt32} {x : T}
    (hslot : ∀ slot ∈ p.slots, Apart a n slot 4)
    (hguid : ∀ slot ∈ p.slots, Apart a n (p.objAddrs slot + 0x8) 8) (guid : UInt64) :
    (p.writeData a x).findGameObjByGUID guid = p.findGameObjByGUID guid := by
  -- every slot points to the same object as before, with the same GUID
  have hobj : ∀ slot ∈ p.slots, (p.writeData a x).objAddrs slot = p.objAddrs slot :=
    fun slot hs => readData_writeData_of_apart (hslot slot hs)
  have hid : ∀ slot ∈ p.slots,
      (p.writeData a x).objGUID (p.objAddrs slot) = p.objGUID (p.objAddrs slot) :=
    fun slot hs => readData_writeData_of_apart (hguid slot hs)
  unfold findGameObjByGUID
  rw [isProcessSet_writeData, slots_writeData]
  congr 2
  apply findSome?_congr
  intro slot hs
  rw [hobj slot hs, hid slot hs]

end HobbitProcessAnalyzer

end HobbitSynchrony
