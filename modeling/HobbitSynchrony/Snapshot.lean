import HobbitSynchrony.EventBlock

/-! # Snapshots

What a client tells the others about its own player in every turn:
`MainPlayer::processData` reads it from the game, `MainPlayer::writeSnap` puts
it into a message, and `ConnectedPlayer::readConectedPlayerSnap` takes it out.

* `Snapshot`, `processData`, `writeSnap`;
* `write`: all messages of a turn;
* `Sized`: a message whose size byte counts what follows it;
* `readGameMessage_writeSnap`, `snapshot_round_trip`: the snapshot arrives in the
  slot of its sender;
* `readGameMessage_sized`: with its label disabled such a message is skipped.
-/

namespace HobbitSynchrony

/-- The members of `MainPlayer` that `writeSnap` sends, and the members of
`ConnectedPlayer` that `readConectedPlayerSnap` sets. -/
structure Snapshot (F : Type) where
  level : UInt8
  animation : UInt32
  animFrame : F
  lastAnimFrame : F
  position : Vector3 F
  rotationY : F
  weapon : Int8
deriving DecidableEq, Repr

variable {B F : Type} [ByteLike B] [FixedWidth B F 4]

namespace MainPlayer

/-! ## Writing -/

/-- `bilboPosXPTR` and `bilboAnimPTR`. -/
structure BilboPtrs where
  bilboPosXPTR : UInt32
  bilboAnimPTR : UInt32

/-- What `readPtrs` reads of Bilbo. -/
def readBilboPtrs (process : HobbitProcessAnalyzer B) : BilboPtrs where
  bilboPosXPTR := process.readData UInt32 0x0075BA3C
  bilboAnimPTR := 0x8 + process.readData UInt32 (0x560 + process.readData UInt32 0x0075BA3C)

/-- `processData`. -/
def processData [Zero F] (process : HobbitProcessAnalyzer B) (ptrs : BilboPtrs) : Snapshot F :=
  let animation := process.readData UInt32 ptrs.bilboAnimPTR
  { level := process.readData UInt8 0x00762B5C
    animation := if animation ≤ 200 then animation else 1
    animFrame := process.readData F (0x0075BA3C + 0x530)
    lastAnimFrame := process.readData F (0x0075BA3C + 0x53C)
    position :=
      { x := process.readData F (0x7C4 + ptrs.bilboPosXPTR)
        y := process.readData F (0x7C8 + ptrs.bilboPosXPTR)
        z := process.readData F (0x7CC + ptrs.bilboPosXPTR) }
    rotationY := process.readData F (0x7AC + ptrs.bilboPosXPTR)
    weapon := process.readData Int8 0x0075C738 }

/-- `writeSnap`. -/
def writeSnap (snap : Snapshot F) : BaseMessage B :=
  let dataVec : List B :=
    [ByteLike.ofByte DataLabel.connectedPlayerSnap.toByte, ByteLike.ofByte 0]
  let dataVec := addSize 1 (pushTypeToVector snap.level dataVec)
  let dataVec := addSize 4 (pushTypeToVector snap.animation dataVec)
  let dataVec := addSize 4 (pushTypeToVector snap.animFrame dataVec)
  let dataVec := addSize 4 (pushTypeToVector snap.lastAnimFrame dataVec)
  let dataVec := pushTypeToVector snap.position.x dataVec
  let dataVec := pushTypeToVector snap.position.y dataVec
  let dataVec := pushTypeToVector snap.position.z dataVec
  -- the size of the whole vector
  let dataVec := addSize 12 dataVec
  let dataVec := addSize 4 (pushTypeToVector snap.rotationY dataVec)
  let dataVec := addSize 1 (pushTypeToVector snap.weapon dataVec)
  { messageType := snapshotMessage, senderID := 0, message := dataVec }

/-- `write`: the snapshot, and the events that have entries. -/
def write [Zero F] [Sub F] [BEq F] [LT F] [DecidableLT F] (process : HobbitProcessAnalyzer B)
    (ptrs : BilboPtrs) (player : MainPlayer F) : List (BaseMessage B) × MainPlayer F :=
  let snap := writeSnap (processData process ptrs : Snapshot F)
  let (enemy, player) := writeEnemiesEvent process player
  let (inventory, player) := writeInventoryEvent process player
  ([snap] ++ (if 0 < enemy.message.length then [enemy] else []) ++
    (if 0 < inventory.message.length then [inventory] else []), player)

/-! ## The size byte -/

/-- A data vector with this label, this size byte, and `len` bytes behind them. -/
def Sized (label : DataLabel) (size : UInt8) (len : ℕ) (dataVec : List B) : Prop :=
  ∃ rest, dataVec = ByteLike.ofByte label.toByte :: ByteLike.ofByte size :: rest ∧
    rest.length = len

/-- The bytes of a snapshot, as they are sent. -/
def snapBytes (snap : Snapshot F) : List B :=
  FixedWidth.encode snap.level ++ (FixedWidth.encode snap.animation ++
    (FixedWidth.encode snap.animFrame ++ (FixedWidth.encode snap.lastAnimFrame ++
    (FixedWidth.encode snap.position.x ++ (FixedWidth.encode snap.position.y ++
    (FixedWidth.encode snap.position.z ++ (FixedWidth.encode snap.rotationY ++
    FixedWidth.encode snap.weapon)))))))

theorem writeSnap_message (snap : Snapshot F) :
    (writeSnap snap : BaseMessage B).message =
      ByteLike.ofByte DataLabel.connectedPlayerSnap.toByte :: ByteLike.ofByte 30 ::
        snapBytes snap := by
  simp [writeSnap, addSize, pushTypeToVector, snapBytes]

/-- A snapshot has 30 bytes, and its size byte says so. -/
theorem sized_writeSnap (snap : Snapshot F) :
    Sized .connectedPlayerSnap 30 30 (writeSnap snap : BaseMessage B).message := by
  refine ⟨snapBytes snap, writeSnap_message snap, ?_⟩
  unfold snapBytes
  simp only [List.length_append, FixedWidth.length_encode]

end MainPlayer

/-! ## Reading -/

/-- The snapshot a slot holds. -/
def ConnectedPlayer.snapshot (p : ConnectedPlayer F) : Snapshot F where
  level := p.hostLevel
  animation := p.animation
  animFrame := p.animFrame
  lastAnimFrame := p.lastAnimFrame
  position := p.position
  rotationY := p.rotationY
  weapon := p.weapon

/-- A slot that has got a snapshot. -/
def ConnectedPlayer.withSnapshot (snap : Snapshot F) (p : ConnectedPlayer F) :
    ConnectedPlayer F where
  id := p.id
  hostLevel := snap.level
  animation := snap.animation
  animFrame := snap.animFrame
  lastAnimFrame := snap.lastAnimFrame
  position := snap.position
  rotationY := snap.rotationY
  weapon := snap.weapon

/-- The snapshot is put into a slot. -/
def GameState.putSnapshot (slot : Fin 7) (snap : Snapshot F) (g : GameState B F) :
    GameState B F :=
  { g with
    connectedPlayers := fun i =>
      if i = slot then (g.connectedPlayers i).withSnapshot snap else g.connectedPlayers i }

omit [ByteLike B] [FixedWidth B F 4] in
/-- One field is read into the slot. -/
theorem readField_encode {T : Type} {n : ℕ} [FixedWidth B T n] (slot : Fin 7)
    (put : ConnectedPlayer F → T → ConnectedPlayer F) (value : T) (rest : List B)
    (g : GameState B F) :
    readField slot T put ⟨FixedWidth.encode value ++ rest, g⟩ =
      .ok () ⟨rest, { g with
        connectedPlayers := fun i =>
          if i = slot then put (g.connectedPlayers i) value else g.connectedPlayers i }⟩ := by
  unfold readField
  rw [bind_ok (convert_encode value rest g)]
  exact rfl

/-- All fields are read into the slot. -/
theorem readConectedPlayerSnap_snapBytes (slot : Fin 7) (snap : Snapshot F) (g : GameState B F) :
    readConectedPlayerSnap slot ⟨MainPlayer.snapBytes snap, g⟩ =
      .ok () ⟨[], g.putSnapshot slot snap⟩ := by
  have hlast (weapon : Int8) : (FixedWidth.encode weapon : List B) =
      FixedWidth.encode weapon ++ [] := (List.append_nil _).symm
  unfold readConectedPlayerSnap MainPlayer.snapBytes
  rw [hlast, bind_ok (readField_encode _ _ _ _ _), bind_ok (readField_encode _ _ _ _ _),
    bind_ok (readField_encode _ _ _ _ _), bind_ok (readField_encode _ _ _ _ _),
    bind_ok (readField_encode _ _ _ _ _), bind_ok (readField_encode _ _ _ _ _),
    bind_ok (readField_encode _ _ _ _ _), bind_ok (readField_encode _ _ _ _ _),
    readField_encode]
  -- every field of the slot has been set once
  unfold GameState.putSnapshot
  congr
  funext i
  by_cases hi : i = slot
  · simp [hi, ConnectedPlayer.withSnapshot]
  · simp [hi]

section message

variable [Zero F] [Add F] [LT F] [DecidableLT F]

/-- The message of a snapshot, with its label enabled, puts the snapshot into
the slot of the sender, and does nothing else. -/
theorem readGameMessage_writeSnap {states : LabelStates}
    (enabled : states.processLabel .connectedPlayerSnap = true) (senderID : UInt8)
    (snap : Snapshot F) (g : GameState B F) :
    readGameMessage states senderID ⟨(MainPlayer.writeSnap snap : BaseMessage B).message, g⟩ =
      .ok () ⟨[], g.putSnapshot (slotOf g senderID) snap⟩ := by
  have hlabel : DataLabel.ofByte (ByteLike.toByte
      (ByteLike.ofByte DataLabel.connectedPlayerSnap.toByte : B)) = .connectedPlayerSnap := by
    rw [ByteLike.toByte_ofByte]
    exact rfl
  have hrun : handleLabel senderID .connectedPlayerSnap ⟨MainPlayer.snapBytes snap, g⟩ =
      .ok () ⟨[], g.putSnapshot (slotOf g senderID) snap⟩ :=
    readConectedPlayerSnap_snapBytes (slotOf g senderID) snap g
  rw [← hlabel] at enabled hrun
  rw [MainPlayer.writeSnap_message, readGameMessage_ok _ _ enabled hrun (Nat.zero_le _)]
  exact readBlocks_nil states senderID 0 _

omit [ByteLike B] [FixedWidth B F 4] [Zero F] [Add F] [LT F] [DecidableLT F] in
/-- The slot of a sender who has one is the first with the sender's ID. -/
theorem slotOf_first {g : GameState B F} {senderID : UInt8}
    (h : ∃ i, (g.connectedPlayers i).id = senderID.toNat) :
    (g.connectedPlayers (slotOf g senderID)).id = senderID.toNat ∧
      ∀ j < slotOf g senderID, (g.connectedPlayers j).id ≠ senderID.toNat := by
  unfold slotOf
  cases hfind : (List.finRange 7).find?
      fun i => (g.connectedPlayers i).id == senderID.toNat with
  | none =>
      rcases h with ⟨i, hi⟩
      rw [List.find?_eq_none] at hfind
      exact absurd (beq_iff_eq.2 hi) (hfind i (List.mem_finRange i))
  | some slot =>
      rcases List.find?_eq_some_iff_getElem.1 hfind with ⟨hid, i, hi, hslot, hbefore⟩
      refine ⟨beq_iff_eq.1 hid, ?_⟩
      intro j hj heq
      -- the slots are searched in order
      rw [List.getElem_finRange] at hslot
      have hlt : j.val < i := by
        rw [← hslot] at hj
        exact hj
      have hj' := hbefore j.val hlt
      rw [List.getElem_finRange] at hj'
      have hno : ((g.connectedPlayers j).id == senderID.toNat) = false := by simpa using hj'
      rw [beq_iff_eq.2 heq] at hno
      cases hno

/-- A snapshot makes the round trip: it is stored in the first slot with the
ID of its sender, and nothing else changes. The message is read to its end, and
its size byte is the number of bytes behind it. -/
theorem snapshot_round_trip {states : LabelStates}
    (enabled : states.processLabel .connectedPlayerSnap = true) (senderID : UInt8)
    (snap : Snapshot F) (g : GameState B F)
    (h : ∃ i, (g.connectedPlayers i).id = senderID.toNat) :
    (∃ (size : UInt8) (payload : List B), (MainPlayer.writeSnap snap : BaseMessage B).message =
      ByteLike.ofByte DataLabel.connectedPlayerSnap.toByte :: ByteLike.ofByte size :: payload ∧
        size.toNat = payload.length) ∧
    ∃ (slot : Fin 7) (g' : GameState B F),
      (g.connectedPlayers slot).id = senderID.toNat ∧
      (∀ j < slot, (g.connectedPlayers j).id ≠ senderID.toNat) ∧
      readGameMessage states senderID ⟨(MainPlayer.writeSnap snap : BaseMessage B).message, g⟩ =
        .ok () ⟨[], g'⟩ ∧
      (g'.connectedPlayers slot).snapshot = snap ∧
      (g'.connectedPlayers slot).id = (g.connectedPlayers slot).id ∧
      (∀ j ≠ slot, g'.connectedPlayers j = g.connectedPlayers j) ∧
      g'.process = g.process ∧ g'.mainPlayer = g.mainPlayer := by
  constructor
  · rcases (MainPlayer.sized_writeSnap snap : MainPlayer.Sized _ _ _ (_ : List B)) with
      ⟨payload, hmessage, hlength⟩
    refine ⟨30, payload, hmessage, ?_⟩
    rw [hlength]
    exact rfl
  · rcases slotOf_first h with ⟨hid, hfirst⟩
    refine ⟨slotOf g senderID, g.putSnapshot (slotOf g senderID) snap, hid, hfirst,
      readGameMessage_writeSnap enabled senderID snap g, ?_, ?_, ?_, rfl, rfl⟩
    · simp [GameState.putSnapshot, ConnectedPlayer.snapshot, ConnectedPlayer.withSnapshot]
    · simp [GameState.putSnapshot, ConnectedPlayer.withSnapshot]
    · intro j hj
      simp [GameState.putSnapshot, hj]

/-- A game with player 5 in every slot. -/
def manyFives : GameState UInt8 UInt32 :=
  { freshGame with connectedPlayers := fun i => { freshGame.connectedPlayers i with id := 5 } }

/-- Player 5, running. -/
def runningSnapshot : Snapshot UInt32 :=
  { level := 3, animation := 12, animFrame := 0x41200000, lastAnimFrame := 0x41A00000,
    position := { x := 0x3F800000, y := 0x40000000, z := 0x40400000 },
    rotationY := 0x7FC00001, weapon := -1 }

/-- The snapshot of player 5 is stored in a slot with the ID 5. -/
theorem snapshot_round_trip_five : ∃ (slot : Fin 7) (g' : GameState UInt8 UInt32),
    (manyFives.connectedPlayers slot).id = 5 ∧
      readGameMessage (fun _ => none) 5
        ⟨(MainPlayer.writeSnap runningSnapshot : BaseMessage UInt8).message, manyFives⟩ =
          .ok () ⟨[], g'⟩ ∧ (g'.connectedPlayers slot).snapshot = runningSnapshot := by
  have henabled : LabelStates.processLabel (fun _ => none) .connectedPlayerSnap = true := by decide
  have hslot : ∃ i, (manyFives.connectedPlayers i).id = (5 : UInt8).toNat :=
    ⟨slotOf manyFives 5, rfl⟩
  rcases (snapshot_round_trip henabled 5 runningSnapshot manyFives hslot).2 with
    ⟨slot, g', hid, -, hrun, hsnap, -⟩
  exact ⟨slot, g', hid, hrun, hsnap⟩

/-- A message whose label is disabled: as many bytes are passed over as the size
byte says, and the rest is read as a message of its own. -/
theorem readGameMessage_disabled {states : LabelStates} {label size : B}
    (disabled : states.processLabel (.ofByte (ByteLike.toByte label)) = false) (senderID : UInt8)
    (rest : List B) (g : GameState B F) :
    readGameMessage states senderID ⟨label :: size :: rest, g⟩ =
      readGameMessage states senderID ⟨rest.drop (ByteLike.toByte size).toNat, g⟩ := by
  have hlen : (rest.drop (ByteLike.toByte size).toNat).length ≤ (size :: rest).length := by
    rw [List.length_drop, List.length_cons]
    omega
  unfold readGameMessage
  dsimp only
  rw [List.length_cons, readBlocks_skipped senderID size g disabled]
  exact readBlocks_fuel states senderID _ _ _ g hlen (Nat.le_refl _)

/-- A message with a size byte that counts what follows it is skipped whole, if
its label is disabled. -/
theorem readGameMessage_sized {states : LabelStates} {label : DataLabel} {len : ℕ}
    {message : List B} (hsized : MainPlayer.Sized label (UInt8.ofNat len) len message)
    (hlen : len < 256) (hlabel : DataLabel.ofByte label.toByte = label)
    (disabled : states.processLabel label = false) (senderID : UInt8) (g : GameState B F) :
    readGameMessage states senderID ⟨message, g⟩ = .ok () ⟨[], g⟩ := by
  rcases hsized with ⟨rest, rfl, hrest⟩
  have hdisabled : states.processLabel
      (.ofByte (ByteLike.toByte (ByteLike.ofByte label.toByte : B))) = false := by
    rw [ByteLike.toByte_ofByte, hlabel]
    exact disabled
  have hsize : (ByteLike.toByte (ByteLike.ofByte (UInt8.ofNat len) : B)).toNat = rest.length := by
    rw [ByteLike.toByte_ofByte, UInt8.toNat_ofNat_of_lt' hlen, hrest]
  rw [readGameMessage_disabled hdisabled, hsize, List.drop_length]
  exact readBlocks_nil states senderID _ g

end message

end HobbitSynchrony
