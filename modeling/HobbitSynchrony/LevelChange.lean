import HobbitSynchrony.EventBlock
import HobbitSynchrony.FailedBlocks

/-! # Level changes

`MainPlayer::writeChangeLevelEvent` and `MainPlayer::readConectedPlayerLevel`.
The writer starts its block as the writers of events do, with a 32-bit count,
and pushes the old level and the new one behind it. The reader takes the first
four bytes for the level and one byte more.

* `writeChangeLevelEvent`: the writer;
* `handle_levelBlock`: the level that the reader takes, and what it leaves;
* `level_block_left_over`: no level change is taken as it was written.
-/

namespace HobbitSynchrony

open HobbitProcessAnalyzer

/-- The conversions between `float` and `uint32_t`. -/
structure FloatCasts (F : Type) where
  ofUInt32 : UInt32 → F
  toUInt32 : F → UInt32

/-- `ptrLevel`. -/
def ptrLevel : UInt32 := 0x0075BDB0

variable {B F : Type} [ByteLike B] [FixedWidth B F 4] [Zero F]

/-- `writeChangeLevelEvent`. -/
def MainPlayer.writeChangeLevelEvent [BEq F] (casts : FloatCasts F)
    (process : HobbitProcessAnalyzer B) (player : MainPlayer F) :
    BaseMessage B × MainPlayer F :=
  let dataVec := blockHead .connectedPlayerLevel
  if casts.ofUInt32 player.level != process.readData F ptrLevel then
    let dataVec := addSize 4 (pushTypeToVector player.level dataVec)
    let player := { player with level := casts.toUInt32 (process.readData F ptrLevel) }
    let dataVec := addSize 4 (pushTypeToVector player.level dataVec)
    ({ messageType := eventMessage, senderID := 0, message := dataVec }, player)
  else (BaseMessage.empty B, player)

/-- The level in memory is not the stored one. -/
def LevelDiffers [BEq F] (casts : FloatCasts F) (process : HobbitProcessAnalyzer B)
    (player : MainPlayer F) : Prop :=
  (casts.ofUInt32 player.level != process.readData F ptrLevel) = true

/-- The block for a change between two levels. -/
def levelBlock (old new : UInt32) : List B :=
  eventBlock (ByteLike.ofByte DataLabel.connectedPlayerLevel.toByte) (ByteLike.ofByte 12) 0
    (FixedWidth.encode old ++ FixedWidth.encode new)

/-- The writer reports the change, and stores the new level. -/
theorem writeChangeLevelEvent_eq [BEq F] {casts : FloatCasts F}
    {process : HobbitProcessAnalyzer B} {player : MainPlayer F}
    (h : LevelDiffers casts process player) :
    player.writeChangeLevelEvent casts process =
      ({ messageType := eventMessage, senderID := 0,
         message := levelBlock player.level (casts.toUInt32 (process.readData F ptrLevel)) },
        { player with level := casts.toUInt32 (process.readData F ptrLevel) }) := by
  have hdiffers : (casts.ofUInt32 player.level != process.readData F ptrLevel) = true := h
  have hsize : ByteLike.toByte (ByteLike.ofByte 4 : B) + 4 = 8 := by
    rw [ByteLike.toByte_ofByte]
    rfl
  have hsize' : ByteLike.toByte (ByteLike.ofByte 8 : B) + 4 = 12 := by
    rw [ByteLike.toByte_ofByte]
    rfl
  unfold MainPlayer.writeChangeLevelEvent
  dsimp only
  rw [if_pos hdiffers, MainPlayer.blockHead_eq, MainPlayer.pushTypeToVector_eventBlock,
    MainPlayer.addSize_eventBlock, hsize, MainPlayer.pushTypeToVector_eventBlock,
    MainPlayer.addSize_eventBlock, hsize', List.nil_append, levelBlock]

variable [Add F] [LT F] [DecidableLT F]

/-- What the reader leaves of the block for a change. -/
def leftOver (old new : UInt32) : List B :=
  (FixedWidth.encode old).drop 1 ++ FixedWidth.encode new

omit [FixedWidth B F 4] [Zero F] [Add F] [LT F] [DecidableLT F] in
theorem length_leftOver (old new : UInt32) : (leftOver old new : List B).length = 7 := by
  unfold leftOver
  rw [List.length_append, List.length_drop, FixedWidth.length_encode, FixedWidth.length_encode]

/-- The reader takes the count for the level, and the first byte of the old level. -/
theorem handle_levelBlock (senderID : UInt8) (old new : UInt32)
    (g : GameState B F) :
    handleLabel senderID .connectedPlayerLevel ⟨(levelBlock old new).drop 2, g⟩ =
      .ok () ⟨leftOver old new, g.withLevel 0⟩ := by
  have hcount : (FixedWidth.encode (UInt32.ofNat 0) : List B).length = 4 :=
    FixedWidth.length_encode _
  have hold : (FixedWidth.encode old : List B).length = 4 := FixedWidth.length_encode _
  rcases List.exists_cons_of_ne_nil (List.ne_nil_of_length_pos (by omega) :
    (FixedWidth.encode old : List B) ≠ []) with ⟨first, rest, hfirst⟩
  unfold handleLabel
  dsimp only
  rw [levelBlock, eventBlock, List.drop_succ_cons, List.drop_succ_cons, List.drop_zero,
    readConectedPlayerLevel_withLevel (by simp), List.drop_left' hcount,
    List.take_left' hcount, FixedWidth.decode_encode, leftOver, hfirst]
  rfl

/-- So the loop over the blocks goes on with what is left. -/
theorem readGameMessage_levelBlock {states : LabelStates}
    (henabled : states.processLabel .connectedPlayerLevel = true) (senderID : UInt8)
    (old new : UInt32) (g : GameState B F) :
    readGameMessage states senderID ⟨levelBlock old new, g⟩ =
      readGameMessage states senderID ⟨leftOver old new, g.withLevel 0⟩ := by
  have hlabel : DataLabel.ofByte (ByteLike.toByte
      (ByteLike.ofByte DataLabel.connectedPlayerLevel.toByte : B)) = .connectedPlayerLevel := by
    rw [ByteLike.toByte_ofByte]
    rfl
  have hhandled : handleLabel senderID (DataLabel.ofByte (ByteLike.toByte
      (ByteLike.ofByte DataLabel.connectedPlayerLevel.toByte : B)))
        ⟨(levelBlock old new).drop 2, g⟩ = .ok () ⟨leftOver old new, g.withLevel 0⟩ := by
    rw [hlabel]
    exact handle_levelBlock senderID old new g
  have hlen : (leftOver old new : List B).length ≤
      ((levelBlock old new : List B).drop 2).length := by
    rw [length_leftOver, levelBlock, eventBlock, List.length_drop, List.length_cons,
      List.length_cons, List.length_append, List.length_append, FixedWidth.length_encode,
      FixedWidth.length_encode, FixedWidth.length_encode]
    decide
  have hprocessed : states.processLabel (DataLabel.ofByte (ByteLike.toByte
      (ByteLike.ofByte DataLabel.connectedPlayerLevel.toByte : B))) = true := by
    rw [hlabel]
    exact henabled
  exact readGameMessage_ok _ (ByteLike.ofByte 12) hprocessed hhandled hlen

/-- The receiver takes the message of a level change as one block, and has the
level of the sender then. -/
def LevelAgrees [BEq F] (states : LabelStates) (senderID : UInt8) (casts : FloatCasts F)
    (process : HobbitProcessAnalyzer B) (player : MainPlayer F) (g : GameState B F) : Prop :=
  let (msg, player) := player.writeChangeLevelEvent casts process
  ∃ g', handleLabel senderID .connectedPlayerLevel ⟨msg.message.drop 2, g⟩ = .ok () ⟨[], g'⟩ ∧
    readGameMessage states senderID ⟨msg.message, g⟩ = .ok () ⟨[], g'⟩ ∧
    g'.mainPlayer.level = player.level

/-- Seven bytes of the block are left, not none. -/
theorem not_levelAgrees [BEq F] (states : LabelStates) (senderID : UInt8) {casts : FloatCasts F}
    {process : HobbitProcessAnalyzer B} {player : MainPlayer F} (g : GameState B F)
    (hdiffers : LevelDiffers casts process player) :
    ¬ LevelAgrees states senderID casts process player g := by
  unfold LevelAgrees
  rw [writeChangeLevelEvent_eq hdiffers]
  rintro ⟨g', hhandled, -, -⟩
  dsimp only at hhandled
  rw [handle_levelBlock] at hhandled
  injection hhandled with _ hstate
  have hlen := congrArg (fun s : Handling B F => s.gameData.length) hstate
  dsimp only at hlen
  rw [length_leftOver] at hlen
  cases hlen

/-- No level change is taken as it was written: the receiver puts 0 for its level,
and goes on with seven more bytes for labels. -/
theorem level_block_left_over [BEq F] {states : LabelStates} (senderID : UInt8)
    {casts : FloatCasts F} {process : HobbitProcessAnalyzer B} {player : MainPlayer F}
    (g : GameState B F) (hdiffers : LevelDiffers casts process player)
    (henabled : states.processLabel .connectedPlayerLevel = true) :
    ¬ LevelAgrees states senderID casts process player g ∧
      readGameMessage states senderID
          ⟨(player.writeChangeLevelEvent casts process).1.message, g⟩ =
        readGameMessage states senderID
          ⟨leftOver player.level (casts.toUInt32 (process.readData F ptrLevel)),
            g.withLevel 0⟩ := by
  refine ⟨not_levelAgrees states senderID g hdiffers, ?_⟩
  rw [writeChangeLevelEvent_eq hdiffers]
  exact readGameMessage_levelBlock henabled senderID _ _ g

/-! ### From level 5 to level 6 -/

/-- The casts of exact numbers. -/
def exactCasts : FloatCasts ℤ where
  ofUInt32 := fun level => level.toNat
  toUInt32 := fun level => UInt32.ofNat level.toNat

/-- A game in level 6. -/
def gameInLevelSix : HobbitProcessAnalyzer (Cell ℤ) :=
  HobbitProcessAnalyzer.writeData
    { isProcessSet := true, memory := fun _ => .byte 0, objectStackAddress := 0,
      objectStackSize := 0 } ptrLevel (6 : ℤ)

/-- A client that has stored level 5. -/
def playerInLevelFive : MainPlayer ℤ := { level := 5, enemies := [], inventory := [] }

/-- Another client, that has just found its game. -/
def otherClient : GameState (Cell ℤ) ℤ := GameState.fresh gameInLevelSix

theorem readData_gameInLevelSix : gameInLevelSix.readData ℤ ptrLevel = 6 :=
  readData_writeData _ _ _ rfl (by decide)

theorem levelDiffers_five_six : LevelDiffers exactCasts gameInLevelSix playerInLevelFive := by
  unfold LevelDiffers
  rw [readData_gameInLevelSix]
  decide

/-- The bytes that are left of this change, when every label is processed. -/
theorem left_over_five_six :
    readGameMessage (fun _ => none) 1
        ⟨(playerInLevelFive.writeChangeLevelEvent exactCasts gameInLevelSix).1.message,
          otherClient⟩ =
      readGameMessage (fun _ => none) 1
        ⟨leftOver 5 (exactCasts.toUInt32 (gameInLevelSix.readData ℤ ptrLevel)),
          otherClient.withLevel 0⟩ :=
  (level_block_left_over 1 otherClient levelDiffers_five_six rfl).2

/-- The receiver does not take the block as a whole, and ends with level 0. -/
theorem level_six_not_taken :
    ¬ LevelAgrees (fun _ => none) 1 exactCasts gameInLevelSix playerInLevelFive
        otherClient ∧
      readGameMessage (fun _ => none) 1
          ⟨(playerInLevelFive.writeChangeLevelEvent exactCasts gameInLevelSix).1.message,
            otherClient⟩ =
        .ok () ⟨[], otherClient.withLevel 0⟩ := by
  refine ⟨not_levelAgrees _ 1 _ levelDiffers_five_six, ?_⟩
  rw [writeChangeLevelEvent_eq levelDiffers_five_six, readData_gameInLevelSix]
  dsimp only
  rw [readGameMessage_levelBlock rfl]
  rfl

end HobbitSynchrony
