import Mathlib.Data.List.Induction
import HobbitSynchrony.HobbitProcessAnalyzer

/-! # Figures in the game

`HobbitGameManager/NPC.h` and `NPC.cpp`: a figure of the game looks up its
object when a level is loaded, remembers addresses in it, and writes to these
addresses later.

* `NPC.setNCP`: the lookup;
* `GameWrites`: a process with the writes made to it;
* `Setter`: the setters that show another player;
* `writes_fresh_iff`: when a setter writes to the object that the last lookup
  found, or to nothing if it found none;
* `stale_rotation`: a setter that writes to the object of the level before.
-/

namespace HobbitSynchrony

open AddressSpace

/-- `NPC`. -/
structure NPC where
  objectAddress : UInt32
  objectPointer : UInt32
  positionXAddress : List UInt32
  rotationYAddress : UInt32
  animationAddress : UInt32
  guid : UInt64
deriving DecidableEq, Repr

/-- A process, and as history the writes made to it: address and bytes. -/
structure GameWrites (B : Type) where
  process : HobbitProcessAnalyzer B
  writes : List (UInt32 × List B)

namespace GameWrites

variable {B : Type}

/-- Nothing written yet. -/
def start (process : HobbitProcessAnalyzer B) : GameWrites B :=
  { process := process, writes := [] }

/-- `hobbitProcessAnalyzer->writeData(address, data)`. -/
def writeData {T : Type} {n : ℕ} [FixedWidth B T n] (address : UInt32) (data : T)
    (w : GameWrites B) : GameWrites B :=
  { process := w.process.writeData address data
    writes :=
      if w.process.isProcessSet then w.writes ++ [(address, FixedWidth.encode data)]
      else w.writes }

/-- The same data to every address of a list. -/
def writeEach {T : Type} {n : ℕ} [FixedWidth B T n] (addresses : List UInt32) (data : T)
    (w : GameWrites B) : GameWrites B :=
  addresses.foldl (fun w address => w.writeData address data) w

/-- The addresses written to. -/
def addresses (w : GameWrites B) : List UInt32 := w.writes.map Prod.fst

variable {T : Type} {n : ℕ} [FixedWidth B T n]

@[simp] theorem isProcessSet_writeData (address : UInt32) (data : T) (w : GameWrites B) :
    (w.writeData address data).process.isProcessSet = w.process.isProcessSet :=
  HobbitProcessAnalyzer.isProcessSet_writeData _ _ _

@[simp] theorem addresses_writeData (address : UInt32) (data : T) (w : GameWrites B) :
    (w.writeData address data).addresses =
      w.addresses ++ if w.process.isProcessSet then [address] else [] := by
  unfold writeData addresses
  by_cases hset : w.process.isProcessSet
  · simp [hset]
  · simp [hset]

@[simp] theorem isProcessSet_writeEach (addresses : List UInt32) (data : T) (w : GameWrites B) :
    (w.writeEach addresses data).process.isProcessSet = w.process.isProcessSet := by
  unfold writeEach
  induction addresses generalizing w with
  | nil => trivial
  | cons address addresses ih => rw [List.foldl_cons, ih, isProcessSet_writeData]

@[simp] theorem addresses_writeEach (addresses : List UInt32) (data : T) (w : GameWrites B) :
    (w.writeEach addresses data).addresses =
      w.addresses ++ if w.process.isProcessSet then addresses else [] := by
  unfold writeEach
  induction addresses generalizing w with
  | nil => simp
  | cons address addresses ih =>
      rw [List.foldl_cons, ih, addresses_writeData, isProcessSet_writeData, List.append_assoc]
      by_cases hset : w.process.isProcessSet
      · simp [hset]
      · simp [hset]

end GameWrites

namespace NPC

/-- `NPC()`. -/
def new : NPC where
  objectAddress := 0
  objectPointer := 0
  positionXAddress := []
  rotationYAddress := 0
  animationAddress := 0
  guid := 0

/-! ## The lookup -/

section lookup

variable {B : Type} [ByteLike B]

/-- The end of the pointer chain of an object: the address of its animation. -/
def animationOf (process : HobbitProcessAnalyzer B) (object : UInt32) : UInt32 :=
  let animAdd2 := process.readData UInt32 (0x304 + object)
  let animAdd3 := process.readData UInt32 (0x50 + animAdd2)
  let animAdd4 := process.readData UInt32 (0x10C + animAdd3)
  0x8 + animAdd4

/-- `setObjectPtrByGUID`. -/
def setObjectPtrByGUID (process : HobbitProcessAnalyzer B) (guid : UInt64) (npc : NPC) : NPC :=
  { npc with
    objectAddress := process.findGameObjByGUID guid
    objectPointer := process.findGameObjStackByPtrGUID guid }

/-- `setPositionXPtr`. -/
def setPositionXPtr (process : HobbitProcessAnalyzer B) (npc : NPC) : NPC :=
  let animationAddress := animationOf process npc.objectAddress
  { npc with
    positionXAddress :=
      [0xC + 0x8 + npc.objectAddress, 0x18 + 0x8 + npc.objectAddress, -0xC4 + animationAddress]
    animationAddress := animationAddress }

/-- `setRotationYPtr`. -/
def setRotationYPtr (npc : NPC) : NPC :=
  { npc with rotationYAddress := 0x64 + 0x8 + npc.objectAddress }

/-- `setAnimationPtr`. -/
def setAnimationPtr (process : HobbitProcessAnalyzer B) (npc : NPC) : NPC :=
  { npc with animationAddress := animationOf process npc.objectAddress }

/-- `setNCP`. (What it reads for the log is left out.) -/
def setNCP (process : HobbitProcessAnalyzer B) (GUID : UInt64) (npc : NPC) : NPC :=
  let npc := ({ npc with guid := GUID } : NPC).setObjectPtrByGUID process GUID
  -- the other addresses stay as they are
  if npc.objectAddress = 0 then npc
  else ((npc.setPositionXPtr process).setRotationYPtr).setAnimationPtr process

/-- A lookup that finds the object sets every address anew. -/
theorem setNCP_of_found {process : HobbitProcessAnalyzer B} {GUID : UInt64}
    (h : process.findGameObjByGUID GUID ≠ 0) (npc : NPC) :
    npc.setNCP process GUID =
      { objectAddress := process.findGameObjByGUID GUID
        objectPointer := process.findGameObjStackByPtrGUID GUID
        positionXAddress :=
          [process.findGameObjByGUID GUID + 0x14, process.findGameObjByGUID GUID + 0x20,
            animationOf process (process.findGameObjByGUID GUID) - 0xC4]
        rotationYAddress := process.findGameObjByGUID GUID + 0x6C
        animationAddress := animationOf process (process.findGameObjByGUID GUID)
        guid := GUID } := by
  unfold setNCP setObjectPtrByGUID
  dsimp only
  rw [if_neg h]
  unfold setAnimationPtr setRotationYPtr setPositionXPtr
  dsimp only
  generalize process.findGameObjByGUID GUID = object
  generalize animationOf process object = animation
  -- the sums of the source, each with its two summands
  simp only [NPC.mk.injEq, List.cons.injEq, and_true, true_and]
  exact ⟨⟨by grind, by grind, by grind⟩, by grind⟩

end lookup

/-! ## The setters -/

section setters

variable {B : Type} {T : Type} {n : ℕ} [FixedWidth B T n]

/-- `setPositionX`. -/
def setPositionX (npc : NPC) (newPosition : T) (w : GameWrites B) : GameWrites B :=
  w.writeEach npc.positionXAddress newPosition

/-- `setPositionY`. -/
def setPositionY (npc : NPC) (newPosition : T) (w : GameWrites B) : GameWrites B :=
  w.writeEach (npc.positionXAddress.map (0x4 + ·)) newPosition

/-- `setPositionZ`. -/
def setPositionZ (npc : NPC) (newPosition : T) (w : GameWrites B) : GameWrites B :=
  w.writeEach (npc.positionXAddress.map (0x8 + ·)) newPosition

/-- `setRotationY`. -/
def setRotationY (npc : NPC) (newRotation : T) (w : GameWrites B) : GameWrites B :=
  w.writeData npc.rotationYAddress newRotation

/-- `setAnimFrames`. -/
def setAnimFrames (npc : NPC) (newAnimFrame newLastAnimFrame : T) (w : GameWrites B) :
    GameWrites B :=
  (w.writeData (npc.animationAddress + 0x8) newAnimFrame).writeData
    (npc.animationAddress + 0x14) newLastAnimFrame

variable [ByteLike B]

/-- `setAnimation`. -/
def setAnimation (npc : NPC) (newAnimation : UInt32) (w : GameWrites B) : GameWrites B :=
  w.writeData npc.animationAddress newAnimation

/-- `setWeapon`. -/
def setWeapon (npc : NPC) (newWeapon : UInt32) (w : GameWrites B) : GameWrites B :=
  w.writeData (npc.objectAddress + 0x260) newWeapon

/-- `getAnimation`. -/
def getAnimation (npc : NPC) (process : HobbitProcessAnalyzer B) : UInt32 :=
  process.readData UInt32 npc.animationAddress

end setters

/-- The setters that `ConnectedPlayer::processPlayer` calls, with the values
they write. -/
inductive Setter (F : Type) where
  | positionX (newPosition : F)
  | positionY (newPosition : F)
  | positionZ (newPosition : F)
  | rotationY (newRotation : F)
  | animation (newAnimation : UInt32)
  | animFrames (newAnimFrame newLastAnimFrame : F)
  | weapon (newWeapon : UInt32)

namespace Setter

variable {B F : Type} [ByteLike B] [FixedWidth B F 4]

/-- The call of a setter. -/
def apply (npc : NPC) : Setter F → GameWrites B → GameWrites B
  | positionX newPosition => npc.setPositionX newPosition
  | positionY newPosition => npc.setPositionY newPosition
  | positionZ newPosition => npc.setPositionZ newPosition
  | rotationY newRotation => npc.setRotationY newRotation
  | animation newAnimation => npc.setAnimation newAnimation
  | animFrames newAnimFrame newLastAnimFrame => npc.setAnimFrames newAnimFrame newLastAnimFrame
  | weapon newWeapon => npc.setWeapon newWeapon

/-- One of the setters of the position. -/
def IsPosition : Setter F → Prop
  | positionX _ => True
  | positionY _ => True
  | positionZ _ => True
  | _ => False

/-- The addresses a setter writes to. -/
def addresses (npc : NPC) : Setter F → List UInt32
  | positionX _ => npc.positionXAddress
  | positionY _ => npc.positionXAddress.map (0x4 + ·)
  | positionZ _ => npc.positionXAddress.map (0x8 + ·)
  | rotationY _ => [npc.rotationYAddress]
  | animation _ => [npc.animationAddress]
  | animFrames _ _ => [npc.animationAddress + 0x8, npc.animationAddress + 0x14]
  | weapon _ => [npc.objectAddress + 0x260]

/-- The addresses of an object that the setter is for: three positions, of which
one is found by the pointer chain of the object, its rotation, its weapon, and
the animation at the end of the chain. -/
def addressesOf (process : HobbitProcessAnalyzer B) (object : UInt32) : Setter F → List UInt32
  | positionX _ => [object + 0x14, object + 0x20, animationOf process object - 0xC4]
  | positionY _ => [object + 0x18, object + 0x24, animationOf process object - 0xC0]
  | positionZ _ => [object + 0x1C, object + 0x28, animationOf process object - 0xBC]
  | rotationY _ => [object + 0x6C]
  | animation _ => [animationOf process object]
  | animFrames _ _ => [animationOf process object + 0x8, animationOf process object + 0x14]
  | weapon _ => [object + 0x260]

theorem addresses_apply (npc : NPC) (setter : Setter F) (w : GameWrites B) :
    (setter.apply npc w).addresses =
      w.addresses ++ if w.process.isProcessSet then setter.addresses npc else [] := by
  cases setter with
  | positionX newPosition => simp [apply, addresses, setPositionX]
  | positionY newPosition => simp [apply, addresses, setPositionY]
  | positionZ newPosition => simp [apply, addresses, setPositionZ]
  | rotationY newRotation => simp [apply, addresses, setRotationY]
  | animation newAnimation => simp [apply, addresses, setAnimation]
  | weapon newWeapon => simp [apply, addresses, setWeapon]
  | animFrames newAnimFrame newLastAnimFrame =>
      by_cases hset : w.process.isProcessSet
      · simp [apply, addresses, setAnimFrames, hset]
      · simp [apply, setAnimFrames, hset]

/-- A setter writes to nothing only if it is one of the position and the
figure has no position addresses. -/
theorem addresses_eq_nil_iff (npc : NPC) (setter : Setter F) :
    setter.addresses npc = [] ↔ setter.IsPosition ∧ npc.positionXAddress = [] := by
  cases setter <;> simp [addresses, IsPosition]

omit [FixedWidth B F 4] in
/-- After a lookup that found the object, a setter writes to that object. -/
theorem addresses_setNCP_of_found {process : HobbitProcessAnalyzer B} {GUID : UInt64}
    (h : process.findGameObjByGUID GUID ≠ 0) (npc : NPC) (setter : Setter F) :
    setter.addresses (npc.setNCP process GUID) =
      setter.addressesOf process (process.findGameObjByGUID GUID) := by
  rw [setNCP_of_found h]
  generalize process.findGameObjByGUID GUID = object
  cases setter with
  | positionX newPosition => trivial
  | positionY newPosition =>
      rw [addresses, addressesOf]
      generalize animationOf process object = animation
      simp only [List.map_cons, List.map_nil, List.cons.injEq, and_true]
      exact ⟨by grind, by grind, by grind⟩
  | positionZ newPosition =>
      rw [addresses, addressesOf]
      generalize animationOf process object = animation
      simp only [List.map_cons, List.map_nil, List.cons.injEq, and_true]
      exact ⟨by grind, by grind, by grind⟩
  | rotationY newRotation => trivial
  | animation newAnimation => trivial
  | animFrames newAnimFrame newLastAnimFrame => trivial
  | weapon newWeapon => trivial

end Setter

/-! ## Stale addresses -/

section stale

variable {B F : Type} [ByteLike B] [FixedWidth B F 4]

/-- The figure after these lookups, each in the process as it was then. -/
def afterLookups (calls : List (HobbitProcessAnalyzer B × UInt64)) : NPC :=
  calls.foldl (fun npc call => npc.setNCP call.1 call.2) new

/-- The lookup found the object. -/
def Found (call : HobbitProcessAnalyzer B × UInt64) : Prop :=
  call.1.findGameObjByGUID call.2 ≠ 0

instance (call : HobbitProcessAnalyzer B × UInt64) : Decidable (Found call) :=
  inferInstanceAs (Decidable (_ ≠ _))

/-- The setter writes to the object that the last lookup found, or to nothing
if it did not find it. -/
def WritesFresh (calls : List (HobbitProcessAnalyzer B × UInt64))
    (process : HobbitProcessAnalyzer B) (setter : Setter F) : Prop :=
  let written := (setter.apply (afterLookups calls) (.start process)).addresses
  match calls.getLast? with
  | none => written = []
  | some call =>
    if Found call then
      ∀ address ∈ written, address ∈ setter.addressesOf call.1 (call.1.findGameObjByGUID call.2)
    else written = []

theorem afterLookups_append (calls : List (HobbitProcessAnalyzer B × UInt64))
    (call : HobbitProcessAnalyzer B × UInt64) :
    afterLookups (calls ++ [call]) = (afterLookups calls).setNCP call.1 call.2 := by
  unfold afterLookups
  rw [List.foldl_append, List.foldl_cons, List.foldl_nil]

/-- A lookup that does not find the object keeps the position addresses, one
that finds it sets them. -/
theorem positionXAddress_setNCP (process : HobbitProcessAnalyzer B) (GUID : UInt64) (npc : NPC) :
    (npc.setNCP process GUID).positionXAddress = [] ↔
      npc.positionXAddress = [] ∧ ¬ Found (process, GUID) := by
  unfold setNCP Found
  by_cases hzero : process.findGameObjByGUID GUID = 0
  · simp [setObjectPtrByGUID, hzero]
  · simp [setObjectPtrByGUID, hzero, setPositionXPtr, setRotationYPtr, setAnimationPtr]

/-- A figure has position addresses as soon as one lookup found its object. -/
theorem positionXAddress_eq_nil_iff (calls : List (HobbitProcessAnalyzer B × UInt64)) :
    (afterLookups calls).positionXAddress = [] ↔ ∀ call ∈ calls, ¬ Found call := by
  induction calls using List.reverseRecOn with
  | nil => simp [afterLookups, new]
  | append_singleton calls call ih =>
      rw [afterLookups_append, positionXAddress_setNCP, ih, List.forall_mem_append]
      simp

theorem written_eq (calls : List (HobbitProcessAnalyzer B × UInt64))
    (process : HobbitProcessAnalyzer B) (setter : Setter F) :
    (setter.apply (afterLookups calls) (.start process)).addresses =
      if process.isProcessSet then setter.addresses (afterLookups calls) else [] := by
  rw [Setter.addresses_apply]
  exact List.nil_append _

/-- A setter writes nothing exactly if there is no process, or if it is one of
the position and no lookup ever found the object. -/
theorem written_eq_nil_iff (calls : List (HobbitProcessAnalyzer B × UInt64))
    (process : HobbitProcessAnalyzer B) (setter : Setter F) :
    (setter.apply (afterLookups calls) (.start process)).addresses = [] ↔
      process.isProcessSet = false ∨ setter.IsPosition ∧ ∀ call ∈ calls, ¬ Found call := by
  rw [written_eq, ← positionXAddress_eq_nil_iff, ← Setter.addresses_eq_nil_iff]
  by_cases hset : process.isProcessSet
  · simp [hset]
  · simp [hset]

/-- A setter writes to nothing but the object of the last lookup exactly if
that lookup found it, or if the setter writes nothing at all. -/
theorem writes_fresh_iff (calls : List (HobbitProcessAnalyzer B × UInt64))
    (process : HobbitProcessAnalyzer B) (setter : Setter F) :
    WritesFresh calls process setter ↔
      (∃ call ∈ calls.getLast?, Found call) ∨ process.isProcessSet = false ∨
        setter.IsPosition ∧ ∀ call ∈ calls, ¬ Found call := by
  rw [← written_eq_nil_iff calls process setter]
  unfold WritesFresh
  rcases List.eq_nil_or_concat calls with rfl | ⟨earlier, call, rfl⟩
  · simp
  · rw [List.concat_eq_append, List.getLast?_concat]
    by_cases hfound : Found call
    · -- everything the setter writes to was set by this lookup
      have hfresh : ∀ address ∈ (setter.apply (afterLookups (earlier ++ [call]))
          (.start process)).addresses,
          address ∈ setter.addressesOf call.1 (call.1.findGameObjByGUID call.2) := by
        intro address hmem
        rw [written_eq, afterLookups_append, Setter.addresses_setNCP_of_found hfound] at hmem
        split at hmem
        · exact hmem
        · cases hmem
      simp only [hfound, if_true, Option.mem_some_iff, exists_eq_left', true_or, iff_true]
      exact hfresh
    · simp [hfound]

end stale

/-! ## A level without the object -/

/-- A level whose only object is at `0x2000` and has GUID 7. -/
def levelOne : HobbitProcessAnalyzer UInt8 where
  isProcessSet := true
  memory := fun address => if address = 0x1001 then 0x20 else if address = 0x2008 then 7 else 0
  objectStackAddress := 0x1000
  objectStackSize := 1

/-- A level without objects. -/
def levelTwo : HobbitProcessAnalyzer UInt8 := { levelOne with memory := fun _ => 0 }

/-- On the second level the rotation is still written to the object of the
first one. -/
theorem stale_rotation :
    ¬ WritesFresh [(levelOne, 7), (levelTwo, 7)] levelTwo (.rotationY (0 : UInt32)) := by
  intro hfresh
  have hnothing : ((Setter.rotationY (0 : UInt32)).apply
      (afterLookups [(levelOne, 7), (levelTwo, 7)]) (.start levelTwo)).addresses = [] := by
    have hlost : ¬ Found (levelTwo, 7) := by decide
    unfold WritesFresh at hfresh
    simpa only [List.getLast?_cons_cons, List.getLast?_singleton, if_neg hlost] using hfresh
  revert hnothing
  decide

end NPC

end HobbitSynchrony
