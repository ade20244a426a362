import HobbitSynchrony.ConnectedPlayers

/-! # What showing a player changes in the game

The writes of `ConnectedPlayer::processPlayer`, made through pointers into the
object of the figure and into the animation at the end of its pointer chain.

* `GameWrites.ofWrites`: the history of the writes determines the memory;
* `NPC.Cell`: the cells of a figure, with `Setter.cellWrites`, which setter writes what
  into which of them;
* `shownSetters`: the setters that `processPlayer` calls;
* `processPlayer_writes`: the cells hold the snapshot, and nothing else changes.
-/

namespace HobbitSynchrony

open AddressSpace

variable {B F : Type} [ByteLike B] [FixedWidth B F 4]

/-! ## The memory after a history of writes -/

namespace GameWrites

/-- The process `p` after the writes `ws`. -/
def ofWrites (p : HobbitProcessAnalyzer B) (ws : List (UInt32 × List B)) : GameWrites B where
  process := { p with memory := storeAll p.memory ws }
  writes := ws

variable {T : Type} {n : ℕ} [FixedWidth B T n]

omit [ByteLike B] in
theorem start_eq_ofWrites (p : HobbitProcessAnalyzer B) : start p = ofWrites p [] := rfl

omit [ByteLike B] in
theorem writeData_ofWrites {p : HobbitProcessAnalyzer B} (hp : p.isProcessSet)
    (ws : List (UInt32 × List B)) (address : UInt32) (data : T) :
    (ofWrites p ws).writeData address data =
      ofWrites p (ws ++ [(address, FixedWidth.encode data)]) := by
  unfold writeData ofWrites HobbitProcessAnalyzer.writeData
  dsimp only
  rw [if_pos hp, if_pos hp, storeAll_append]
  exact rfl

omit [ByteLike B] in
theorem writeEach_ofWrites {p : HobbitProcessAnalyzer B} (hp : p.isProcessSet)
    (ws : List (UInt32 × List B)) (addresses : List UInt32) (data : T) :
    (ofWrites p ws).writeEach addresses data =
      ofWrites p (ws ++ addresses.map fun address => (address, FixedWidth.encode data)) := by
  unfold writeEach
  induction addresses generalizing ws with
  | nil => rw [List.foldl_nil, List.map_nil, List.append_nil]
  | cons address addresses ih =>
      rw [List.foldl_cons, writeData_ofWrites hp, ih, List.map_cons, List.append_assoc,
        List.singleton_append]

end GameWrites

/-! ## The cells of a figure -/

namespace NPC

/-- A cell of a figure: an offset of its object, or of its animation. -/
inductive Cell where
  | object (offset : UInt32)
  | animation (offset : UInt32)
deriving DecidableEq, Repr

namespace Cell

/-- The offsets of an object that a setter writes to: the two positions, the
rotation and the weapon. -/
def objectOffsets : List UInt32 := [0x14, 0x18, 0x1C, 0x20, 0x24, 0x28, 0x6C, 0x260]

/-- The offsets of the animation that a setter writes to: the position in front
of it, the animation and its two frames. -/
def animationOffsets : List UInt32 := [-0xC4, -0xC0, -0xBC, 0, 0x8, 0x14]

/-- Where the cell is. -/
def address (object animation : UInt32) : Cell → UInt32
  | .object offset => object + offset
  | .animation offset => animation + offset

/-- Two cells of four bytes that do not overlap if the object and the animation
do not. -/
def Separate : Cell → Cell → Prop
  | .object i, .object j => 4 ≤ (j - i).toNat ∧ 4 ≤ (i - j).toNat
  | .animation i, .animation j => 4 ≤ (j - i).toNat ∧ 4 ≤ (i - j).toNat
  | .object i, .animation j => i ∈ objectOffsets ∧ j ∈ animationOffsets
  | .animation i, .object j => i ∈ animationOffsets ∧ j ∈ objectOffsets

instance : DecidableRel Separate := fun c d => by
  cases c <;> cases d <;> exact inferInstanceAs (Decidable (_ ∧ _))

end Cell

/-- The cells of the object and those of the animation do not overlap. -/
def CellsApart (object animation : UInt32) : Prop :=
  ∀ i ∈ Cell.objectOffsets, ∀ j ∈ Cell.animationOffsets, Apart (object + i) 4 (animation + j) 4

theorem Cell.Separate.apart {object animation : UInt32} (hapart : CellsApart object animation)
    {c d : Cell} (h : c.Separate d) :
    Apart (c.address object animation) 4 (d.address object animation) 4 := by
  cases c with
  | object i =>
      cases d with
      | object j => exact apart_add h.1 h.2
      | animation j => exact hapart i h.1 j h.2
  | animation i =>
      cases d with
      | object j => exact (hapart j h.2 i h.1).symm
      | animation j => exact apart_add h.1 h.2

namespace Setter

/-- The cells a setter writes to, with the bytes it writes there. -/
def cellWrites : Setter F → List (Cell × List B)
  | positionX newPosition =>
    [.object 0x14, .object 0x20, .animation (-0xC4)].map (·, FixedWidth.encode newPosition)
  | positionY newPosition =>
    [.object 0x18, .object 0x24, .animation (-0xC0)].map (·, FixedWidth.encode newPosition)
  | positionZ newPosition =>
    [.object 0x1C, .object 0x28, .animation (-0xBC)].map (·, FixedWidth.encode newPosition)
  | rotationY newRotation => [(.object 0x6C, FixedWidth.encode newRotation)]
  | animation newAnimation => [(.animation 0, FixedWidth.encode newAnimation)]
  | animFrames newAnimFrame newLastAnimFrame =>
    [(.animation 0x8, FixedWidth.encode newAnimFrame),
      (.animation 0x14, FixedWidth.encode newLastAnimFrame)]
  | weapon newWeapon => [(.object 0x260, FixedWidth.encode newWeapon)]

end Setter

/-- Writes to cells as writes to addresses. -/
def placed (object animation : UInt32) (ws : List (Cell × List B)) : List (UInt32 × List B) :=
  ws.map fun w => (w.1.address object animation, w.2)

/-- A setter of a figure whose object was found writes to its cells. -/
theorem Setter.apply_ofWrites {p lookup : HobbitProcessAnalyzer B} {GUID : UInt64}
    (hp : p.isProcessSet) (found : Found (lookup, GUID)) (npc : NPC)
    (ws : List (UInt32 × List B)) (setter : Setter F) :
    setter.apply (npc.setNCP lookup GUID) (.ofWrites p ws) =
      .ofWrites p (ws ++ placed (lookup.findGameObjByGUID GUID)
        (animationOf lookup (lookup.findGameObjByGUID GUID)) setter.cellWrites) := by
  have haddresses := addresses_setNCP_of_found found npc setter
  generalize npc.setNCP lookup GUID = npc at haddresses ⊢
  generalize lookup.findGameObjByGUID GUID = object at haddresses ⊢
  unfold addressesOf at haddresses
  generalize animationOf lookup object = anim at haddresses ⊢
  cases setter with
  | positionX newPosition =>
      unfold addresses at haddresses
      dsimp only at haddresses
      rw [UInt32.sub_eq_add_neg] at haddresses
      rw [apply, setPositionX, GameWrites.writeEach_ofWrites hp, haddresses]
      exact rfl
  | positionY newPosition =>
      unfold addresses at haddresses
      dsimp only at haddresses
      rw [UInt32.sub_eq_add_neg] at haddresses
      rw [apply, setPositionY, GameWrites.writeEach_ofWrites hp, haddresses]
      exact rfl
  | positionZ newPosition =>
      unfold addresses at haddresses
      dsimp only at haddresses
      rw [UInt32.sub_eq_add_neg] at haddresses
      rw [apply, setPositionZ, GameWrites.writeEach_ofWrites hp, haddresses]
      exact rfl
  | rotationY newRotation =>
      rw [addresses, List.singleton_inj] at haddresses
      rw [apply, setRotationY, GameWrites.writeData_ofWrites hp, haddresses]
      exact rfl
  | animation newAnimation =>
      rw [addresses, List.singleton_inj] at haddresses
      have hzero : anim + 0 = anim := UInt32.add_zero anim
      rw [apply, setAnimation, GameWrites.writeData_ofWrites hp, haddresses, cellWrites, placed]
      simp only [List.map_cons, List.map_nil, Cell.address, hzero]
  | animFrames newAnimFrame newLastAnimFrame =>
      unfold addresses at haddresses
      simp only [List.cons.injEq, and_true] at haddresses
      rw [apply, setAnimFrames, GameWrites.writeData_ofWrites hp,
        GameWrites.writeData_ofWrites hp, haddresses.1, haddresses.2, List.append_assoc]
      exact rfl
  | weapon newWeapon =>
      rw [addresses, List.singleton_inj] at haddresses
      rw [apply, setWeapon, GameWrites.writeData_ofWrites hp, haddresses]
      exact rfl

/-- The calls of several setters, one after the other. -/
def Setter.applyAll (npc : NPC) (setters : List (Setter F)) (w : GameWrites B) : GameWrites B :=
  setters.foldl (fun w setter => setter.apply npc w) w

theorem Setter.applyAll_append (npc : NPC) (setters later : List (Setter F)) (w : GameWrites B) :
    applyAll npc (setters ++ later) w = applyAll npc later (applyAll npc setters w) :=
  List.foldl_append

theorem Setter.applyAll_ofWrites {p lookup : HobbitProcessAnalyzer B} {GUID : UInt64}
    (hp : p.isProcessSet) (found : Found (lookup, GUID)) (npc : NPC)
    (ws : List (UInt32 × List B)) (setters : List (Setter F)) :
    applyAll (npc.setNCP lookup GUID) setters (.ofWrites p ws) =
      .ofWrites p (ws ++ placed (lookup.findGameObjByGUID GUID)
        (animationOf lookup (lookup.findGameObjByGUID GUID)) (setters.flatMap cellWrites)) := by
  unfold applyAll
  induction setters generalizing ws with
  | nil =>
      rw [List.foldl_nil, List.flatMap_nil, placed, List.map_nil, List.append_nil]
  | cons setter setters ih =>
      rw [List.foldl_cons, apply_ofWrites hp found, ih, List.flatMap_cons]
      simp only [placed, List.map_append, List.append_assoc]

section placed

variable {object anim : UInt32} {cw : List (Cell × List B)}

omit [ByteLike B] in
/-- Four bytes in each of several separate cells are all there at the end. -/
theorem load_placed (hapart : CellsApart object anim)
    (hseparate : (cw.map Prod.fst).Pairwise Cell.Separate) (hlen : ∀ w ∈ cw, w.2.length = 4)
    (m : Memory B) {c : Cell} {bs : List B} (hmem : (c, bs) ∈ cw) :
    load (storeAll m (placed object anim cw)) (c.address object anim) 4 = bs := by
  have hplaced : (placed object anim cw).Pairwise
      fun v w => Apart v.1 v.2.length w.1 w.2.length := by
    rw [placed, List.pairwise_map]
    refine (List.pairwise_map.1 hseparate).imp_of_mem ?_
    intro v w hv hw hcells
    rw [hlen v hv, hlen w hw]
    exact hcells.apart hapart
  have hbs : bs.length = 4 := hlen _ hmem
  have hload := load_storeAll (m := m) hplaced (List.mem_map_of_mem hmem) (by simp [hbs])
  rwa [hbs] at hload

omit [ByteLike B] in
theorem read_placed {T : Type} [FixedWidth B T 4] (hapart : CellsApart object anim)
    (hseparate : (cw.map Prod.fst).Pairwise Cell.Separate) (hlen : ∀ w ∈ cw, w.2.length = 4)
    (m : Memory B) {c : Cell} {x : T} (hmem : (c, FixedWidth.encode x) ∈ cw) :
    read T (storeAll m (placed object anim cw)) (c.address object anim) = x := by
  unfold AddressSpace.read
  rw [load_placed hapart hseparate hlen m hmem, FixedWidth.decode_encode]

omit [ByteLike B] in
/-- A cell that is separate from all that are written to keeps its bytes. -/
theorem load_placed_of_separate (hapart : CellsApart object anim) (hlen : ∀ w ∈ cw, w.2.length = 4)
    (m : Memory B) {c : Cell} (hseparate : ∀ d ∈ cw.map Prod.fst, d.Separate c) :
    load (storeAll m (placed object anim cw)) (c.address object anim) 4 =
      load m (c.address object anim) 4 := by
  apply load_storeAll_of_apart
  intro w hw
  rcases List.mem_map.1 hw with ⟨v, hv, rfl⟩
  rw [hlen v hv]
  exact (hseparate v.1 (List.mem_map_of_mem hv)).apart hapart

end placed

end NPC

/-! ## The setters of `processPlayer` -/

/-- The setters that move the figure. -/
def moveSetters (snap : Snapshot F) : List (NPC.Setter F) :=
  [.positionX snap.position.x, .positionY snap.position.y, .positionZ snap.position.z,
    .rotationY snap.rotationY]

/-- The setters of another animation. -/
def animateSetters (snap : Snapshot F) : List (NPC.Setter F) :=
  [.animation snap.animation, .animFrames snap.animFrame snap.lastAnimFrame]

/-- The setters called to show a snapshot: those of the animation only if it
differs, and that of the weapon only if one was found. -/
def shownSetters (snap : Snapshot F) (differs : Bool) (weapon : Option UInt32) :
    List (NPC.Setter F) :=
  moveSetters snap ++ ((if differs then animateSetters snap else []) ++
    weapon.toList.map .weapon)

/-- The animation is compared after the figure has been moved. -/
theorem showSnapshot_eq (npc : NPC) (snap : Snapshot F) (w : GameWrites B) :
    ∃ weapon, showSnapshot npc snap w = NPC.Setter.applyAll npc
      (shownSetters snap (snap.animation != npc.getAnimation
        (NPC.Setter.applyAll npc (moveSetters snap) w).process) weapon) w := by
  unfold showSnapshot shownSetters
  simp only [NPC.Setter.applyAll_append]
  have hmoved : npc.setRotationY snap.rotationY (npc.setPositionZ snap.position.z
      (npc.setPositionY snap.position.y (npc.setPositionX snap.position.x w))) =
        NPC.Setter.applyAll npc (moveSetters snap) w := rfl
  rw [hmoved]
  generalize NPC.Setter.applyAll npc (moveSetters snap) w = moved
  have hanimated : (if snap.animation ≠ npc.getAnimation moved.process then
      npc.setAnimFrames snap.animFrame snap.lastAnimFrame (npc.setAnimation snap.animation moved)
      else moved) = NPC.Setter.applyAll npc
        (if snap.animation != npc.getAnimation moved.process then animateSetters snap else [])
        moved := by
    by_cases hdiffers : snap.animation = npc.getAnimation moved.process
    · simp [hdiffers, NPC.Setter.applyAll]
    · simp [hdiffers, NPC.Setter.applyAll, animateSetters, NPC.Setter.apply]
  rw [hanimated]
  generalize NPC.Setter.applyAll npc (_ : List (NPC.Setter F)) moved = animated
  -- no weapon, a weapon that no object has, and a weapon that is found
  split
  · split
    · exact ⟨some (animated.process.readData UInt32
        (animated.process.findGameObjByGUID (guidOfWeapon snap.weapon) + 0x260)), rfl⟩
    · exact ⟨none, rfl⟩
  · exact ⟨none, rfl⟩

/-- The cells that a snapshot is written to. -/
def shownCells (differs weapon : Bool) : List NPC.Cell :=
  [.object 0x14, .object 0x20, .animation (-0xC4), .object 0x18, .object 0x24,
    .animation (-0xC0), .object 0x1C, .object 0x28, .animation (-0xBC), .object 0x6C] ++
  ((if differs then [.animation 0, .animation 0x8, .animation 0x14] else []) ++
    if weapon then [.object 0x260] else [])

/-- The writes of the setters that are called. -/
def shownWrites (snap : Snapshot F) (differs : Bool) (weapon : Option UInt32) :
    List (NPC.Cell × List B) :=
  (shownSetters snap differs weapon).flatMap NPC.Setter.cellWrites

/-- Every setter writes four bytes into a cell. -/
theorem length_of_mem_cellWrites {setter : NPC.Setter F} {w : NPC.Cell × List B}
    (hw : w ∈ setter.cellWrites) : w.2.length = 4 := by
  cases setter <;> simp only [NPC.Setter.cellWrites, List.map_cons, List.map_nil,
    List.mem_cons, List.not_mem_nil, or_false] at hw <;> grind [FixedWidth.length_encode]

theorem length_of_mem_shownWrites {snap : Snapshot F} {differs : Bool} {weapon : Option UInt32}
    {w : NPC.Cell × List B} (hw : w ∈ shownWrites snap differs weapon) : w.2.length = 4 := by
  rcases List.mem_flatMap.1 hw with ⟨setter, -, hmem⟩
  exact length_of_mem_cellWrites hmem

theorem map_fst_shownWrites (snap : Snapshot F) (differs : Bool) (weapon : Option UInt32) :
    (shownWrites snap differs weapon : List (NPC.Cell × List B)).map Prod.fst =
      shownCells differs weapon.isSome := by
  cases differs <;> cases weapon <;> rfl

theorem pairwise_shownCells (differs weapon : Bool) :
    (shownCells differs weapon).Pairwise NPC.Cell.Separate := by
  revert differs weapon
  decide

theorem mem_shownWrites_of_move {snap : Snapshot F} {w : NPC.Cell × List B}
    (hw : w ∈ (moveSetters snap).flatMap NPC.Setter.cellWrites) (differs : Bool)
    (weapon : Option UInt32) : w ∈ shownWrites snap differs weapon := by
  rw [shownWrites, shownSetters, List.flatMap_append]
  exact List.mem_append_left _ hw

theorem mem_shownWrites_of_animate {snap : Snapshot F} {w : NPC.Cell × List B}
    (hw : w ∈ (animateSetters snap).flatMap NPC.Setter.cellWrites) (weapon : Option UInt32) :
    w ∈ shownWrites snap true weapon := by
  rw [shownWrites, shownSetters, List.flatMap_append, List.flatMap_append]
  exact List.mem_append_right _ (List.mem_append_left _ hw)

/-- Without a new animation no cell of the animation is written to. -/
theorem separate_shownCells : ∀ weapon, ∀ d ∈ shownCells false weapon,
    ∀ c ∈ [NPC.Cell.animation 0, .animation 0x8, .animation 0x14], d.Separate c := by
  decide

/-- The memory after the writes of a turn. -/
def shownMemory (object anim : UInt32) (snap : Snapshot F) (differs : Bool)
    (weapon : Option UInt32) (m : Memory B) : Memory B :=
  storeAll m (NPC.placed object anim (shownWrites snap differs weapon))

/-- A cell that a setter writes to holds what the setter writes. -/
theorem read_shownMemory {T : Type} [FixedWidth B T 4] {object anim : UInt32}
    (hapart : NPC.CellsApart object anim) (snap : Snapshot F) (differs : Bool)
    (weapon : Option UInt32) (m : Memory B) (c : NPC.Cell) (x : T)
    (hmem : (c, (FixedWidth.encode x : List B)) ∈ shownWrites snap differs weapon) :
    read T (shownMemory object anim snap differs weapon m) (c.address object anim) = x := by
  apply NPC.read_placed hapart _ (fun w => length_of_mem_shownWrites) m hmem
  rw [map_fst_shownWrites]
  exact pairwise_shownCells _ _

/-- Without a new animation its cells keep their bytes. -/
theorem load_shownMemory {object anim : UInt32} (hapart : NPC.CellsApart object anim)
    (snap : Snapshot F) (weapon : Option UInt32) (m : Memory B) (c : NPC.Cell)
    (hc : c ∈ [NPC.Cell.animation 0, .animation 0x8, .animation 0x14]) :
    load (shownMemory object anim snap false weapon m) (c.address object anim) 4 =
      load m (c.address object anim) 4 := by
  apply NPC.load_placed_of_separate hapart (fun w => length_of_mem_shownWrites) m
  rw [map_fst_shownWrites]
  exact fun d hd => separate_shownCells _ d hd c hc

/-! ## The cells after a turn -/

/-- The cells of a figure: two positions, the rotation and the weapon in its
object; a position, the animation and two frames in its animation. -/
def figureCells (object anim : UInt32) : List UInt32 :=
  NPC.Cell.objectOffsets.map (object + ·) ++ NPC.Cell.animationOffsets.map (anim + ·)

/-- A figure with this object and this animation shows a snapshot, and nothing
else has changed. -/
structure ShownIn (object anim : UInt32) (snap : Snapshot F) (before after : Memory B) :
    Prop where
  position : ∀ cell ∈ [object + 0x14, object + 0x20, anim - 0xC4],
    read F after cell = snap.position.x ∧ read F after (cell + 0x4) = snap.position.y ∧
      read F after (cell + 0x8) = snap.position.z
  rotation : read F after (object + 0x6C) = snap.rotationY
  animation : read UInt32 after anim = snap.animation
  frames : read UInt32 before anim ≠ snap.animation →
    read F after (anim + 0x8) = snap.animFrame ∧ read F after (anim + 0x14) = snap.lastAnimFrame
  frames_unchanged : read UInt32 before anim = snap.animation →
    ∀ cell ∈ [anim + 0x8, anim + 0x14], load after cell 4 = load before cell 4
  unchanged : ∀ address, (∀ cell ∈ figureCells object anim, ∀ i < 4,
    cell + UInt32.ofNat i ≠ address) → after address = before address

/-- The cells written to are cells of the figure. -/
theorem address_mem_figureCells {object anim : UInt32} {differs weapon : Bool} {c : NPC.Cell}
    (hc : c ∈ shownCells differs weapon) : c.address object anim ∈ figureCells object anim := by
  have hall : ∀ differs weapon, ∀ c ∈ shownCells differs weapon,
      c ∈ NPC.Cell.objectOffsets.map .object ++ NPC.Cell.animationOffsets.map .animation := by
    decide
  rcases List.mem_append.1 (hall differs weapon c hc) with hobject | hanim
  · rcases List.mem_map.1 hobject with ⟨offset, hoffset, rfl⟩
    exact List.mem_append_left _ (List.mem_map_of_mem hoffset)
  · rcases List.mem_map.1 hanim with ⟨offset, hoffset, rfl⟩
    exact List.mem_append_right _ (List.mem_map_of_mem hoffset)

/-- The three copies of the position. -/
theorem position_shownMemory {object anim : UInt32} (hapart : NPC.CellsApart object anim)
    (snap : Snapshot F) (m : Memory B) (differs : Bool) (weapon : Option UInt32) :
    ∀ cell ∈ [object + 0x14, object + 0x20, anim - 0xC4],
      let after := shownMemory object anim snap differs weapon m
      read F after cell = snap.position.x ∧ read F after (cell + 0x4) = snap.position.y ∧
        read F after (cell + 0x8) = snap.position.z := by
  -- three cells, one for each coordinate
  have hcopy (cx cy cz : NPC.Cell)
      (hcells : (cx, cy, cz) ∈ [(NPC.Cell.object 0x14, NPC.Cell.object 0x18, NPC.Cell.object 0x1C),
        (.object 0x20, .object 0x24, .object 0x28),
        (.animation (-0xC4), .animation (-0xC0), .animation (-0xBC))]) :
      let after := shownMemory object anim snap differs weapon m
      read F after (cx.address object anim) = snap.position.x ∧
        read F after (cy.address object anim) = snap.position.y ∧
        read F after (cz.address object anim) = snap.position.z := by
    simp only [List.mem_cons, Prod.mk.injEq, List.not_mem_nil, or_false] at hcells
    refine ⟨read_shownMemory hapart snap _ _ m cx _ (mem_shownWrites_of_move ?_ _ _),
      read_shownMemory hapart snap _ _ m cy _ (mem_shownWrites_of_move ?_ _ _),
      read_shownMemory hapart snap _ _ m cz _ (mem_shownWrites_of_move ?_ _ _)⟩
    · rcases hcells with ⟨rfl, -, -⟩ | ⟨rfl, -, -⟩ | ⟨rfl, -, -⟩ <;>
        simp [moveSetters, NPC.Setter.cellWrites]
    · rcases hcells with ⟨-, rfl, -⟩ | ⟨-, rfl, -⟩ | ⟨-, rfl, -⟩ <;>
        simp [moveSetters, NPC.Setter.cellWrites]
    · rcases hcells with ⟨-, -, rfl⟩ | ⟨-, -, rfl⟩ | ⟨-, -, rfl⟩ <;>
        simp [moveSetters, NPC.Setter.cellWrites]
  intro cell hcell
  simp only [List.mem_cons, List.not_mem_nil, or_false] at hcell
  rcases hcell with rfl | rfl | rfl
  · have hy : object + 0x14 + 0x4 = object + 0x18 := by grind
    have hz : object + 0x14 + 0x8 = object + 0x1C := by grind
    rw [hy, hz]
    exact hcopy (.object 0x14) (.object 0x18) (.object 0x1C) (by simp)
  · have hy : object + 0x20 + 0x4 = object + 0x24 := by grind
    have hz : object + 0x20 + 0x8 = object + 0x28 := by grind
    rw [hy, hz]
    exact hcopy (.object 0x20) (.object 0x24) (.object 0x28) (by simp)
  · have hx : anim - 0xC4 = anim + -0xC4 := UInt32.sub_eq_add_neg _ _
    have hy : anim - 0xC4 + 0x4 = anim + -0xC0 := by grind
    have hz : anim - 0xC4 + 0x8 = anim + -0xBC := by grind
    rw [hy, hz, hx]
    exact hcopy (.animation (-0xC4)) (.animation (-0xC0)) (.animation (-0xBC)) (by simp)

theorem shownIn_shownMemory {object anim : UInt32} (hapart : NPC.CellsApart object anim)
    (snap : Snapshot F) (m : Memory B) (weapon : Option UInt32) :
    ShownIn object anim snap m
      (shownMemory object anim snap (snap.animation != read UInt32 m anim) weapon m) := by
  have hzero : anim + 0 = anim := UInt32.add_zero anim
  constructor
  case position => exact position_shownMemory hapart snap m _ weapon
  case rotation =>
      exact read_shownMemory hapart snap _ _ m (.object 0x6C) _
        (mem_shownWrites_of_move (by simp [moveSetters, NPC.Setter.cellWrites]) _ _)
  case animation =>
      by_cases hsame : snap.animation = read UInt32 m anim
      · -- it is there already
        have hkept := load_shownMemory hapart snap weapon m (.animation 0) (by simp)
        rw [NPC.Cell.address, hzero] at hkept
        have hdiffers : (snap.animation != read UInt32 m anim) = false := by simpa using hsame
        rw [hdiffers, hsame]
        exact congrArg FixedWidth.decode hkept
      · have hdiffers : (snap.animation != read UInt32 m anim) = true := by simpa using hsame
        have hread := read_shownMemory hapart snap true weapon m (.animation 0) snap.animation
          (mem_shownWrites_of_animate (by simp [animateSetters, NPC.Setter.cellWrites]) weapon)
        rwa [NPC.Cell.address, hzero, ← hdiffers] at hread
  case frames =>
      intro hne
      have hdiffers : (snap.animation != read UInt32 m anim) = true := by
        simpa using hne.symm
      rw [hdiffers]
      have hwritten (w : NPC.Cell × List B)
          (hw : w ∈ ((animateSetters snap).flatMap NPC.Setter.cellWrites : List (_ × List B))) :=
        mem_shownWrites_of_animate hw weapon
      exact ⟨read_shownMemory hapart snap true weapon m (.animation 0x8) snap.animFrame
          (hwritten _ (by simp [animateSetters, NPC.Setter.cellWrites])),
        read_shownMemory hapart snap true weapon m (.animation 0x14) snap.lastAnimFrame
          (hwritten _ (by simp [animateSetters, NPC.Setter.cellWrites]))⟩
  case frames_unchanged =>
      intro heq cell hcell
      have hdiffers : (snap.animation != read UInt32 m anim) = false := by simpa using heq.symm
      rw [hdiffers]
      simp only [List.mem_cons, List.not_mem_nil, or_false] at hcell
      rcases hcell with rfl | rfl
      · exact load_shownMemory hapart snap weapon m (.animation 0x8) (by simp)
      · exact load_shownMemory hapart snap weapon m (.animation 0x14) (by simp)
  case unchanged =>
      intro address haddress
      apply storeAll_apply_of_apart
      intro w hw
      rcases List.mem_map.1 hw with ⟨v, hv, rfl⟩
      have hcell := List.mem_map_of_mem (f := Prod.fst) hv
      rw [map_fst_shownWrites] at hcell
      rw [length_of_mem_shownWrites hv]
      exact haddress _ (address_mem_figureCells hcell)

/-! ## The turn of a player -/

/-- The animation is compared as it was before: no position and no rotation is
part of it. -/
theorem getAnimation_moved {p lookup : HobbitProcessAnalyzer B} {GUID : UInt64}
    (hp : p.isProcessSet) (found : NPC.Found (lookup, GUID))
    (hapart : NPC.CellsApart (lookup.findGameObjByGUID GUID)
      (NPC.animationOf lookup (lookup.findGameObjByGUID GUID)))
    (npc : NPC) (snap : Snapshot F) :
    (npc.setNCP lookup GUID).getAnimation
        (NPC.Setter.applyAll (npc.setNCP lookup GUID) (moveSetters snap) (.start p)).process =
      read UInt32 p.memory (NPC.animationOf lookup (lookup.findGameObjByGUID GUID)) := by
  have haddress : (npc.setNCP lookup GUID).animationAddress =
      NPC.animationOf lookup (lookup.findGameObjByGUID GUID) := by
    rw [NPC.setNCP_of_found found]
  rw [NPC.getAnimation, haddress, GameWrites.start_eq_ofWrites,
    NPC.Setter.applyAll_ofWrites hp found, List.nil_append]
  generalize lookup.findGameObjByGUID GUID = object at hapart ⊢
  generalize NPC.animationOf lookup object = anim at hapart ⊢
  have hshown : (moveSetters snap).flatMap NPC.Setter.cellWrites =
      (shownWrites snap false none : List (NPC.Cell × List B)) := rfl
  have hkept := load_shownMemory hapart snap none p.memory (.animation 0) (by simp)
  have hzero : anim + 0 = anim := UInt32.add_zero anim
  rw [NPC.Cell.address, hzero] at hkept
  rw [HobbitProcessAnalyzer.readData, GameWrites.ofWrites, hshown, if_pos hp]
  exact congrArg FixedWidth.decode hkept

/-- `processPlayer` of a figure whose object was found writes the snapshot into
the cells of the figure, or nothing if the player is not shown. -/
theorem processPlayer_writes {p lookup : HobbitProcessAnalyzer B} {GUID : UInt64}
    (hp : p.isProcessSet) (found : NPC.Found (lookup, GUID))
    (hapart : NPC.CellsApart (lookup.findGameObjByGUID GUID)
      (NPC.animationOf lookup (lookup.findGameObjByGUID GUID)))
    (npc : NPC) (myId : UInt8) (player : ConnectedPlayer F) :
    let after := (processPlayer myId (npc.setNCP lookup GUID) player (.start p)).process
    if player.id = -1 ∨ player.id = myId.toNat ∨
        player.hostLevel ≠ p.readData UInt8 0x00762B5C then
      after = p
    else
      after = { p with memory := after.memory } ∧
        ShownIn (lookup.findGameObjByGUID GUID)
          (NPC.animationOf lookup (lookup.findGameObjByGUID GUID)) player.snapshot
          p.memory after.memory := by
  intro after
  by_cases hskip : player.id = -1 ∨ player.id = myId.toNat ∨
      player.hostLevel ≠ p.readData UInt8 0x00762B5C
  · have hnot : ¬ player.IsShown myId (.start p) := by
      rintro ⟨⟨hnone, hme⟩, hlevel⟩
      exact hskip.elim hnone fun hrest => hrest.elim hme fun hother => hother hlevel
    rw [if_pos hskip]
    unfold after
    rw [processPlayer_eq, if_neg hnot]
    exact rfl
  · have hshown : player.IsShown myId (.start p) := by
      rw [not_or, not_or, not_not] at hskip
      exact ⟨⟨hskip.1, hskip.2.1⟩, hskip.2.2⟩
    rw [if_neg hskip]
    rcases showSnapshot_eq (npc.setNCP lookup GUID) player.snapshot (.start p) with
      ⟨weapon, hsetters⟩
    -- only the memory of the process changes
    have hwritten : ∃ m, ShownIn (lookup.findGameObjByGUID GUID)
        (NPC.animationOf lookup (lookup.findGameObjByGUID GUID)) player.snapshot p.memory m ∧
        after = { p with memory := m } := by
      refine ⟨_, shownIn_shownMemory hapart player.snapshot p.memory weapon, ?_⟩
      unfold after
      rw [processPlayer_eq, if_pos hshown, hsetters, getAnimation_moved hp found hapart,
        GameWrites.start_eq_ofWrites, NPC.Setter.applyAll_ofWrites hp found, List.nil_append,
        ← shownWrites, GameWrites.ofWrites, ← shownMemory]
    rcases hwritten with ⟨m, hshows, hafter⟩
    rw [hafter]
    exact ⟨rfl, hshows⟩

/-- A level with the figure's object at `0x2000`, whose animation is at `0x6008`, and an
object at `0x3000` with a weapon. -/
def armedLevel : HobbitProcessAnalyzer UInt8 where
  isProcessSet := true
  memory := write (write (write (write (write (write (write (write (fun _ => 0)
    0x1000 (0x2000 : UInt32)) 0x1014 (0x3000 : UInt32)) 0x2008 (7 : UInt64))
    0x2304 (0x4000 : UInt32)) 0x4050 (0x5000 : UInt32)) 0x510C (0x6000 : UInt32))
    0x3008 (0x0D8AD910E885100C : UInt64)) 0x3260 (0x7000 : UInt32)
  objectStackAddress := 0x1000
  objectStackSize := 2

/-- Player 2, who has moved and turned, and runs with a weapon. -/
def armedPlayer : ConnectedPlayer UInt32 where
  id := 2
  hostLevel := 0
  animation := 9
  animFrame := 1
  lastAnimFrame := 4
  position := { x := 10, y := 20, z := 30 }
  rotationY := 5
  weapon := 3

/-- All cells of the figure are written to. -/
theorem processPlayer_writes_armed :
    let after := (processPlayer 3 (NPC.new.setNCP armedLevel 7) armedPlayer
      (.start armedLevel)).process
    after = { armedLevel with memory := after.memory } ∧
      ShownIn 0x2000 0x6008 armedPlayer.snapshot armedLevel.memory after.memory ∧
      read UInt32 after.memory 0x2260 = 0x7000 := by
  have hobject : armedLevel.findGameObjByGUID 7 = 0x2000 := by decide
  have hanim : NPC.animationOf armedLevel 0x2000 = 0x6008 := by decide
  have hapart : NPC.CellsApart (armedLevel.findGameObjByGUID 7)
      (NPC.animationOf armedLevel (armedLevel.findGameObjByGUID 7)) := by
    have hall : (NPC.Cell.objectOffsets.all fun i => NPC.Cell.animationOffsets.all fun j =>
        decide (4 ≤ ((0x6008 : UInt32) + j - (0x2000 + i)).toNat ∧
          4 ≤ ((0x2000 : UInt32) + i - (0x6008 + j)).toNat)) = true := by decide
    rw [hobject, hanim]
    intro i hi j hj
    have hsub := of_decide_eq_true (List.all_eq_true.1 (List.all_eq_true.1 hall i hi) j hj)
    exact apart_of_sub hsub.1 hsub.2
  have hfound : NPC.Found (armedLevel, 7) := by decide
  have hwrites := processPlayer_writes (p := armedLevel) rfl hfound hapart NPC.new 3 armedPlayer
  rw [hobject, hanim] at hwrites
  exact ⟨hwrites.1, hwrites.2, by decide⟩

end HobbitSynchrony
