import Mathlib.Data.List.Find
import HobbitSynchrony.HobbitProcessAnalyzer

/-! # Searches through the object stack

The four searches of `HobbitProcessAnalyzer` are copies of one loop over the
slots of the object stack, with the offset of a slot computed in 32 bits.

* `stackSlots`, `stackObjs`: the slots and the objects, without wrapping;
* `slots_eq_take`, `slots_eq`: the loop walks over the first of these slots, over
  all of them if they lie in memory;
* `findGameObjByGUID_eq` and its siblings: every search as a search in the list
  of the objects;
* `searches_agree`: how the results hang together.
-/

namespace HobbitSynchrony

open AddressSpace

namespace HobbitProcessAnalyzer

variable {B : Type}

/-! ## The stack -/

/-- The addresses of the slots, as numbers. -/
def stackSlots (p : HobbitProcessAnalyzer B) : List ℕ :=
  (List.range p.objectStackSize.toNat).map fun k => p.objectStackAddress.toNat + 20 * k

/-- All slots lie at non-zero addresses, with room for a slot behind them. -/
def StackInRange (p : HobbitProcessAnalyzer B) : Prop :=
  ∀ slot ∈ p.stackSlots, 0 < slot ∧ slot < 2 ^ 32 - 20

instance (p : HobbitProcessAnalyzer B) : Decidable p.StackInRange :=
  List.decidableBAll _ _

/-- How many slots the loops visit, whose bound is a 32-bit product. -/
def visitedSlots (p : HobbitProcessAnalyzer B) : ℕ :=
  ((p.objectStackSize * objectPtrSize).toNat + 19) / 20

theorem visitedSlots_eq (p : HobbitProcessAnalyzer B) :
    p.visitedSlots = ((20 * p.objectStackSize.toNat) % 2 ^ 32 + 19) / 20 := by
  have hsize : objectPtrSize.toNat = 20 := rfl
  rw [visitedSlots, UInt32.toNat_mul, hsize, Nat.mul_comm]

/-- The loops visit the first slots of the stack. -/
theorem slots_eq_take (p : HobbitProcessAnalyzer B) :
    p.slots = (p.stackSlots.take p.visitedSlots).map UInt32.ofNat := by
  have hle : p.visitedSlots ≤ p.objectStackSize.toNat := by
    rw [visitedSlots_eq]
    omega
  unfold slots stackSlots
  rw [← visitedSlots, List.map_take, List.map_map, ← List.map_take, List.take_range,
    Nat.min_eq_left hle]
  apply List.map_congr_left
  intro k _
  rw [Function.comp_apply, UInt32.ofNat_add, UInt32.ofNat_toNat]

/-- If the slots lie in memory, the bound of the loops does not wrap. -/
theorem visitedSlots_of_stackInRange {p : HobbitProcessAnalyzer B} (h : p.StackInRange) :
    p.visitedSlots = p.objectStackSize.toNat := by
  have hwhole : 20 * p.objectStackSize.toNat < 2 ^ 32 := by
    by_cases hzero : p.objectStackSize.toNat = 0
    · rw [hzero]
      norm_num
    · -- the last slot has the highest address
      have hlast : p.objectStackAddress.toNat + 20 * (p.objectStackSize.toNat - 1) ∈
          p.stackSlots := by
        apply List.mem_map_of_mem
        rw [List.mem_range]
        omega
      have hlt := (h _ hlast).2
      omega
  rw [visitedSlots_eq]
  omega

/-- The slots of the loops are those of the stack. -/
theorem slots_eq {p : HobbitProcessAnalyzer B} (h : p.StackInRange) :
    p.slots = p.stackSlots.map UInt32.ofNat := by
  have hlength : p.stackSlots.length = p.visitedSlots := by
    rw [visitedSlots_of_stackInRange h, stackSlots, List.length_map, List.length_range]
  rw [slots_eq_take, ← hlength, List.take_length]

/-- The address of a slot is not 0. -/
theorem slot_ne_zero {p : HobbitProcessAnalyzer B} (h : p.StackInRange) {slot : UInt32}
    (hslot : slot ∈ p.slots) : slot ≠ 0 := by
  rw [slots_eq h] at hslot
  rcases List.mem_map.1 hslot with ⟨address, haddress, rfl⟩
  have hrange := h address haddress
  intro hzero
  have hnat := congrArg UInt32.toNat hzero
  rw [UInt32.toNat_ofNat', UInt32.toNat_zero, Nat.mod_eq_of_lt (by omega)] at hnat
  omega

variable [ByteLike B]

/-- The objects in the slots, in their order. A free slot has none. -/
def slotObjs (p : HobbitProcessAnalyzer B) : List UInt32 :=
  (p.slots.map p.objAddrs).filter fun obj => obj ≠ 0

/-- The objects of the stack, in the order of their slots. -/
def stackObjs (p : HobbitProcessAnalyzer B) : List UInt32 :=
  (p.stackSlots.map fun slot => p.objAddrs (UInt32.ofNat slot)).filter fun obj => obj ≠ 0

theorem slotObjs_eq {p : HobbitProcessAnalyzer B} (h : p.StackInRange) :
    p.slotObjs = p.stackObjs := by
  unfold slotObjs stackObjs
  rw [slots_eq h, List.map_map]
  exact rfl

/-- Without a process there is nothing to read. -/
theorem objAddrs_of_not_isProcessSet {p : HobbitProcessAnalyzer B} (h : p.isProcessSet = false)
    (slot : UInt32) : p.objAddrs slot = 0 := by
  unfold objAddrs readData
  rw [h]
  exact rfl

theorem slotObjs_of_not_isProcessSet {p : HobbitProcessAnalyzer B} (h : p.isProcessSet = false) :
    p.slotObjs = [] := by
  unfold slotObjs
  rw [List.filter_eq_nil_iff]
  intro obj hobj
  rcases List.mem_map.1 hobj with ⟨slot, -, rfl⟩
  simp [objAddrs_of_not_isProcessSet h]

/-! ## The searches -/

section search

variable (p : HobbitProcessAnalyzer B) (q : UInt32 → Prop) [DecidablePred q]

/-- The loop of a search that returns the object. -/
theorem findSome?_objAddrs (slots : List UInt32) :
    (slots.findSome? fun slot =>
        if p.objAddrs slot ≠ 0 ∧ q (p.objAddrs slot) then some (p.objAddrs slot) else none) =
      ((slots.map p.objAddrs).filter fun obj => obj ≠ 0).find? fun obj => q obj := by
  induction slots with
  | nil => exact rfl
  | cons slot slots ih =>
      rw [List.findSome?_cons, List.map_cons]
      by_cases hobj : p.objAddrs slot = 0
      · rw [if_neg fun h => h.1 hobj, List.filter_cons_of_neg (by simpa using hobj), ih]
      · rw [List.filter_cons_of_pos (by simpa using hobj)]
        by_cases hq : q (p.objAddrs slot)
        · rw [if_pos ⟨hobj, hq⟩, List.find?_cons_of_pos (by simpa using hq)]
        · rw [if_neg fun h => hq h.2, ih, List.find?_cons_of_neg (by simpa using hq)]

/-- The loop of a search that collects the objects. -/
theorem filterMap_objAddrs (slots : List UInt32) :
    (slots.filterMap fun slot =>
        if p.objAddrs slot ≠ 0 ∧ q (p.objAddrs slot) then some (p.objAddrs slot) else none) =
      ((slots.map p.objAddrs).filter fun obj => obj ≠ 0).filter fun obj => q obj := by
  induction slots with
  | nil => exact rfl
  | cons slot slots ih =>
      rw [List.filterMap_cons, List.map_cons]
      by_cases hobj : p.objAddrs slot = 0
      · rw [if_neg fun h => h.1 hobj, List.filter_cons_of_neg (by simpa using hobj)]
        exact ih
      · rw [List.filter_cons_of_pos (by simpa using hobj)]
        by_cases hq : q (p.objAddrs slot)
        · rw [if_pos ⟨hobj, hq⟩, List.filter_cons_of_pos (by simpa using hq), ← ih]
        · rw [if_neg fun h => hq h.2, List.filter_cons_of_neg (by simpa using hq)]
          exact ih

end search

section results

variable {T : Type} {n : ℕ} [FixedWidth B T n] [OfNat T 0] [DecidableEq T]

/-- The first object with the GUID. -/
theorem findGameObjByGUID_eq (p : HobbitProcessAnalyzer B) (guid : UInt64) :
    p.findGameObjByGUID guid = (p.slotObjs.find? fun obj => p.objGUID obj = guid).getD 0 := by
  unfold findGameObjByGUID
  cases hset : p.isProcessSet with
  | false =>
      rw [slotObjs_of_not_isProcessSet hset]
      exact rfl
  | true =>
      rw [findSome?_objAddrs p fun obj => p.objGUID obj = guid]
      exact rfl

/-- All objects with the pattern. -/
theorem findAllGameObjByPattern_eq (p : HobbitProcessAnalyzer B) (pattern : T) (shift : UInt32) :
    p.findAllGameObjByPattern pattern shift =
      p.slotObjs.filter fun obj => p.readData T (obj + shift) = pattern := by
  unfold findAllGameObjByPattern
  cases hset : p.isProcessSet with
  | false =>
      rw [slotObjs_of_not_isProcessSet hset]
      exact rfl
  | true =>
      rw [filterMap_objAddrs p fun obj => p.readData T (obj + shift) = pattern]
      exact rfl

/-- The first object with the pattern. -/
theorem findGameObjByPattern_eq (p : HobbitProcessAnalyzer B) (pattern : T) (shift : UInt32) :
    p.findGameObjByPattern pattern shift =
      (p.findAllGameObjByPattern pattern shift).head?.getD 0 := by
  rw [findAllGameObjByPattern_eq, List.head?_filter]
  unfold findGameObjByPattern
  cases hset : p.isProcessSet with
  | false =>
      rw [slotObjs_of_not_isProcessSet hset]
      exact rfl
  | true =>
      rw [findSome?_objAddrs p fun obj => p.readData T (obj + shift) = pattern]
      exact rfl

/-- No object with the GUID is in the stack, or the one that is found is. -/
theorem findGameObjByGUID_cases (p : HobbitProcessAnalyzer B) (guid : UInt64) :
    (p.findGameObjByGUID guid = 0 ∧ ∀ obj ∈ p.slotObjs, p.objGUID obj ≠ guid) ∨
      (p.findGameObjByGUID guid ≠ 0 ∧ p.findGameObjByGUID guid ∈ p.slotObjs ∧
        p.objGUID (p.findGameObjByGUID guid) = guid) := by
  rw [findGameObjByGUID_eq]
  cases hfind : p.slotObjs.find? fun obj => p.objGUID obj = guid with
  | none =>
      rw [List.find?_eq_none] at hfind
      exact .inl ⟨rfl, fun obj hobj => by simpa using hfind obj hobj⟩
  | some obj =>
      have hmem := List.mem_of_find?_eq_some hfind
      have hguid := List.find?_some hfind
      exact .inr ⟨of_decide_eq_true (List.mem_filter.1 hmem).2, hmem, by simpa using hguid⟩

/-- A write that touches no slot leaves the objects where they are. -/
theorem slotObjs_writeData {k : ℕ} {S : Type} [FixedWidth B S k] {p : HobbitProcessAnalyzer B}
    {a : UInt32} {x : S} (hslot : ∀ slot ∈ p.slots, Apart a k slot 4) :
    (p.writeData a x).slotObjs = p.slotObjs := by
  unfold slotObjs
  rw [slots_writeData]
  congr 1
  apply List.map_congr_left
  intro slot hmem
  exact readData_writeData_of_apart (hslot slot hmem)

/-- A write that touches no slot and no GUID of an object of the stack does not
change the result of a search; a slot without an object has no GUID. -/
theorem findGameObjByGUID_writeData_of_objs {k : ℕ} {S : Type} [FixedWidth B S k]
    {p : HobbitProcessAnalyzer B} {a : UInt32} {x : S}
    (hslot : ∀ slot ∈ p.slots, Apart a k slot 4)
    (hguid : ∀ obj ∈ p.slotObjs, Apart a k (obj + 0x8) 8) (guid : UInt64) :
    (p.writeData a x).findGameObjByGUID guid = p.findGameObjByGUID guid := by
  rw [findGameObjByGUID_eq, findGameObjByGUID_eq, slotObjs_writeData hslot]
  congr 1
  apply List.find?_congr
  intro obj hobj
  have hid : (p.writeData a x).objGUID obj = p.objGUID obj :=
    readData_writeData_of_apart (hguid obj hobj)
  rw [hid]

/-- Both searches for a GUID stop at the same slot. -/
theorem findGameObjStackByPtrGUID_eq (p : HobbitProcessAnalyzer B) (guid : UInt64) :
    p.findGameObjStackByPtrGUID guid =
      (p.slots.find? fun slot =>
        p.objAddrs slot ≠ 0 ∧ p.objGUID (p.objAddrs slot) = guid).getD 0 := by
  unfold findGameObjStackByPtrGUID
  cases hset : p.isProcessSet with
  | false =>
      have hnone : (p.slots.find? fun slot =>
          p.objAddrs slot ≠ 0 ∧ p.objGUID (p.objAddrs slot) = guid) = none := by
        rw [List.find?_eq_none]
        intro slot _
        simp [objAddrs_of_not_isProcessSet hset]
      rw [hnone]
      exact rfl
  | true => exact rfl

/-- The object in the slot that is found is the object that is found. -/
theorem objAddrs_find? (p : HobbitProcessAnalyzer B) (guid : UInt64) :
    (p.slotObjs.find? fun obj => p.objGUID obj = guid) =
      (p.slots.find? fun slot =>
        p.objAddrs slot ≠ 0 ∧ p.objGUID (p.objAddrs slot) = guid).map p.objAddrs := by
  unfold slotObjs
  rw [List.find?_filter, List.find?_map]
  congr 2
  funext slot
  simp

/-- The search for the slot finds a slot of the object that the search for the
object finds, or nothing like that one. -/
theorem findGameObjStackByPtrGUID_cases {p : HobbitProcessAnalyzer B} (h : p.StackInRange)
    (guid : UInt64) :
    (p.findGameObjStackByPtrGUID guid = 0 ∧ p.findGameObjByGUID guid = 0) ∨
      (p.findGameObjStackByPtrGUID guid ≠ 0 ∧ p.findGameObjByGUID guid ≠ 0 ∧
        p.objAddrs (p.findGameObjStackByPtrGUID guid) = p.findGameObjByGUID guid) := by
  rw [findGameObjStackByPtrGUID_eq, findGameObjByGUID_eq, objAddrs_find?]
  cases hfind : p.slots.find? fun slot =>
      p.objAddrs slot ≠ 0 ∧ p.objGUID (p.objAddrs slot) = guid with
  | none => exact .inl ⟨rfl, rfl⟩
  | some slot =>
      have hmem := List.mem_of_find?_eq_some hfind
      have hobj := List.find?_some hfind
      rw [decide_eq_true_iff] at hobj
      exact .inr ⟨slot_ne_zero h hmem, hobj.1, rfl⟩

/-! ## How they hang together -/

/-- The searches for a GUID stop at the first object with it, and return the
object and its slot, or 0; those for a pattern return all objects with it in
their order, and the first of these or 0. -/
theorem searches_agree {p : HobbitProcessAnalyzer B} (h : p.StackInRange) (guid : UInt64)
    (pattern : T) (shift : UInt32) :
    (p.findGameObjByGUID guid = (p.stackObjs.find? fun obj => p.objGUID obj = guid).getD 0 ∧
      (p.findGameObjByGUID guid = 0 ↔ ∀ obj ∈ p.stackObjs, p.objGUID obj ≠ guid)) ∧
    (p.findGameObjStackByPtrGUID guid = ((p.stackSlots.map UInt32.ofNat).find? fun slot =>
        p.objAddrs slot ≠ 0 ∧ p.objGUID (p.objAddrs slot) = guid).getD 0 ∧
      (p.findGameObjStackByPtrGUID guid = 0 ↔ p.findGameObjByGUID guid = 0) ∧
      (p.findGameObjStackByPtrGUID guid ≠ 0 →
        p.objAddrs (p.findGameObjStackByPtrGUID guid) = p.findGameObjByGUID guid)) ∧
    p.findAllGameObjByPattern pattern shift =
      (p.stackObjs.filter fun obj => p.readData T (obj + shift) = pattern) ∧
    p.findGameObjByPattern pattern shift =
      (p.findAllGameObjByPattern pattern shift).head?.getD 0 := by
  rw [← slotObjs_eq h, ← slots_eq h]
  refine ⟨⟨findGameObjByGUID_eq p guid, ?_⟩, ⟨findGameObjStackByPtrGUID_eq p guid, ?_, ?_⟩,
    findAllGameObjByPattern_eq p pattern shift, findGameObjByPattern_eq p pattern shift⟩
  · rcases findGameObjByGUID_cases p guid with ⟨hzero, hnone⟩ | ⟨hfound, hmem, hguid⟩
    · exact ⟨fun _ => hnone, fun _ => hzero⟩
    · exact ⟨fun hzero => absurd hzero hfound, fun hnone => absurd hguid (hnone _ hmem)⟩
  · rcases findGameObjStackByPtrGUID_cases h guid with ⟨hslot, hobj⟩ | ⟨hslot, hobj, -⟩
    · exact ⟨fun _ => hobj, fun _ => hslot⟩
    · exact ⟨fun hzero => absurd hzero hslot, fun hzero => absurd hzero hobj⟩
  · intro hfound
    rcases findGameObjStackByPtrGUID_cases h guid with ⟨hslot, -⟩ | ⟨-, -, heq⟩
    · exact absurd hslot hfound
    · exact heq

end results

/-- A stack of three slots: a free one, and two of an object with the GUID 7. -/
def threeSlots : HobbitProcessAnalyzer UInt8 where
  isProcessSet := true
  memory := fun address =>
    if address = 0x1015 ∨ address = 0x1029 then 0x20 else if address = 0x2008 then 7 else 0
  objectStackAddress := 0x1000
  objectStackSize := 3

/-- The object is found in its first slot, and twice by a pattern. -/
theorem searches_agree_threeSlots :
    threeSlots.findGameObjByGUID 7 = 0x2000 ∧ threeSlots.findGameObjStackByPtrGUID 7 = 0x1014 ∧
      threeSlots.findAllGameObjByPattern (7 : UInt64) 8 = [0x2000, 0x2000] ∧
      threeSlots.findGameObjByPattern (7 : UInt64) 8 = 0x2000 := by
  have hrange : threeSlots.StackInRange := by decide
  rcases searches_agree hrange 7 (7 : UInt64) 8 with ⟨⟨hobj, -⟩, ⟨hslot, -⟩, hall, hfirst⟩
  rw [hall] at hfirst ⊢
  rw [hobj, hslot, hfirst]
  decide

end HobbitProcessAnalyzer

end HobbitSynchrony
