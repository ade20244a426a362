import HobbitSynchrony.DisabledLabels
import HobbitSynchrony.FailedBlocks

/-! # What the writers write can be read

A client that receives a message of another client's `MainPlayer::write` reads it
to its end, as long as the message has not too many enemies: 255 fit into the
count, 20 into the size byte that a disabled label goes by.

* `SingleBlock`: one block that is read, or skipped, as a whole;
* `SingleBlock.readable`, `SingleBlock.gameAfter`: what becomes of it;
* `Written`: a message of a turn, with at most `limit` enemies;
* `written_cases`: a snapshot, or an event of a single block;
* `readable_of_written`: the messages of `write` can be read.
-/

namespace HobbitSynchrony

open AddressSpace HobbitProcessAnalyzer MainPlayer

variable {B F : Type} [ByteLike B] [FixedWidth B F 4]

section single

variable {states : LabelStates} {items : ℕ} {label : DataLabel} {message : List B}

variable (F) in
/-- One block with this label: if the label is enabled the block is complete, if it is
disabled the size byte counts the rest. -/
structure SingleBlock (states : LabelStates) (items : ℕ) (label : DataLabel)
    (message : List B) : Prop where
  label_eq : DataLabel.ofByte label.toByte = label
  block : ∃ size rest, message = ByteLike.ofByte label.toByte :: size :: rest ∧
    (states.processLabel label = true →
      Complete F items label rest ∧ blockLength label rest = rest.length) ∧
    (states.processLabel label = false → (ByteLike.toByte size).toNat = rest.length)

omit [FixedWidth B F 4] in
theorem toByte_label (h : DataLabel.ofByte label.toByte = label) :
    DataLabel.ofByte (ByteLike.toByte (ByteLike.ofByte label.toByte : B)) = label := by
  rw [ByteLike.toByte_ofByte, h]

theorem SingleBlock.readable (h : SingleBlock F states items label message) :
    Readable F states items message := by
  rcases h with ⟨hlabel, size, rest, rfl, henabled, hdisabled⟩
  have hbyte := toByte_label (B := B) hlabel
  cases hstate : states.processLabel label with
  | true =>
      rcases henabled hstate with ⟨hcomplete, hlength⟩
      refine .block _ _ _ (by rw [hbyte, hstate]) (by rw [hbyte]; exact hcomplete) ?_
      rw [hbyte, hlength, List.drop_length]
      exact .nil
  | false =>
      refine .skipped _ _ _ (by rw [hbyte, hstate]) ?_
      rw [hdisabled hstate, List.drop_length]
      exact .nil

/-- Such a message is handled by the handler of its label, or not at all. -/
theorem SingleBlock.gameAfter [Zero F] [Add F] [LT F] [DecidableLT F] {g : GameState B F}
    (h : SingleBlock F states g.mainPlayer.inventory.length label message) (senderID : UInt8) :
    gameAfter (readGameMessage states senderID ⟨message, g⟩) = g ∨
      ∃ rest, gameAfter (readGameMessage states senderID ⟨message, g⟩) =
        HobbitSynchrony.gameAfter (handleLabel senderID label ⟨rest, g⟩) := by
  rcases h with ⟨hlabel, size, rest, rfl, henabled, hdisabled⟩
  have hbyte := toByte_label (B := B) hlabel
  cases hstate : states.processLabel label with
  | true =>
      rcases henabled hstate with ⟨hcomplete, hlength⟩
      rcases handleLabel_ok senderID label ⟨rest, g⟩ hcomplete with ⟨g', hrun, -⟩
      dsimp only at hrun
      rw [hlength, List.drop_length] at hrun
      have hrun' := hrun
      rw [← hbyte] at hstate hrun'
      refine .inr ⟨rest, ?_⟩
      rw [readGameMessage_ok _ _ hstate hrun' (Nat.zero_le _), hrun]
      unfold readGameMessage
      rw [readBlocks_nil]
  | false =>
      rw [← hbyte] at hstate
      left
      rw [readGameMessage_disabled hstate, hdisabled (by rw [← hbyte, hstate]), List.drop_length]
      unfold readGameMessage
      rw [readBlocks_nil]
      rfl

/-- A snapshot. -/
theorem singleBlock_writeSnap (snap : Snapshot F) :
    SingleBlock F states items .connectedPlayerSnap (writeSnap snap : BaseMessage B).message := by
  have hlength : (snapBytes snap : List B).length = 30 := by
    unfold snapBytes
    simp only [List.length_append, FixedWidth.length_encode]
  have hblock : blockLength .connectedPlayerSnap (snapBytes snap : List B) = 30 := rfl
  refine ⟨by decide, _, _, writeSnap_message snap, ?_, ?_⟩
  · intro _
    exact ⟨⟨by rw [hblock, hlength], nofun⟩, by rw [hblock, hlength]⟩
  · intro _
    rw [ByteLike.toByte_ofByte, hlength]
    exact rfl

end single

section written

variable [Zero F] [Sub F] [BEq F] {states : LabelStates} {items : ℕ}

/-- The count of a block is read back. -/
theorem decode_count {count : ℕ} (h : count < 2 ^ 32) (entries : List B) :
    (FixedWidth.decode ((FixedWidth.encode (UInt32.ofNat count) ++ entries).take 4) :
      UInt32).toNat = count := by
  have hread := count_eventBlock (ByteLike.ofByte 0 : B) (ByteLike.ofByte 0) entries h
  rwa [eventBlock, List.drop_succ_cons, List.drop_succ_cons, List.drop_zero] at hread

/-- An event with at most 255 enemies, or at most 20 if its label is disabled. -/
theorem singleBlock_writeEnemiesEvent (process : HobbitProcessAnalyzer B)
    (player : MainPlayer F) (hpos : 0 < (writeEnemiesEvent process player).1.message.length)
    (hfew : (reportedChanges process player.enemies).length ≤ 20 ∨
      (reportedChanges process player.enemies).length ≤ 255 ∧
        states.processLabel .enemiesHealth = true) :
    SingleBlock F states items .enemiesHealth (writeEnemiesEvent process player).1.message := by
  set changes := reportedChanges process player.enemies with hchanges
  have hlow : changes.length % 256 = changes.length := by omega
  have hentries : (changes.flatMap entryBytes : List B).length = 12 * changes.length :=
    length_flatMap_entryBytes _
  have hrest : (FixedWidth.encode (UInt32.ofNat changes.length) ++ changes.flatMap entryBytes :
      List B).length = 4 + 12 * changes.length := by
    rw [List.length_append, FixedWidth.length_encode, hentries]
  have hblock : blockLength .enemiesHealth
      (FixedWidth.encode (UInt32.ofNat changes.length) ++ changes.flatMap entryBytes : List B) =
        4 + 12 * changes.length := by
    unfold blockLength
    dsimp only
    rw [decode_count (by omega)]
  rw [writeEnemiesEvent_message, ← hchanges] at hpos ⊢
  split at hpos
  · exact absurd hpos (Nat.lt_irrefl 0)
  next hsent =>
    rw [if_neg hsent, hlow]
    refine ⟨by decide, _, _, rfl, ?_, ?_⟩
    · intro _
      exact ⟨⟨by rw [hblock, hrest], nofun⟩, by rw [hblock, hrest]⟩
    · intro hdisabled
      -- the size byte has not wrapped
      have htwenty : changes.length ≤ 20 := by
        rcases hfew with hfew | ⟨-, henabled⟩
        · exact hfew
        · rw [henabled] at hdisabled
          cases hdisabled
      have hlt : 4 + 12 * changes.length < 256 := by omega
      rw [ByteLike.toByte_ofByte, UInt8.toNat_ofNat_of_lt' hlt, hrest]

variable [LT F] [DecidableLT F]

/-- An event of the inventory, for a receiver with the 56 items. -/
theorem singleBlock_writeInventoryEvent (process : HobbitProcessAnalyzer B)
    (player : MainPlayer F) (hpos : 0 < (writeInventoryEvent process player).1.message.length)
    (hitems : 56 ≤ items) :
    SingleBlock F states items .inventory (writeInventoryEvent process player).1.message := by
  set reported := reportedItems process visitedItems player.inventory with hreported
  have hfew : reported.length ≤ 33 := length_reportedItems_le process player.inventory
  have hentries : (reported.flatMap entryBytes : List B).length = 5 * reported.length :=
    length_flatMap_entryBytes _
  have hrest : (FixedWidth.encode (UInt32.ofNat reported.length) ++ reported.flatMap entryBytes :
      List B).length = 4 + 5 * reported.length := by
    rw [List.length_append, FixedWidth.length_encode, hentries]
  have hcount : (FixedWidth.decode ((FixedWidth.encode (UInt32.ofNat reported.length) ++
      reported.flatMap entryBytes : List B).take 4) : UInt32).toNat = reported.length :=
    decode_count (by omega) _
  have hblock : blockLength .inventory
      (FixedWidth.encode (UInt32.ofNat reported.length) ++ reported.flatMap entryBytes : List B) =
        4 + 5 * reported.length := by
    unfold blockLength
    dsimp only
    rw [hcount]
  -- the loop only visits items of the inventory
  have hbelow : ItemsBelow items reported := by
    intro entry hentry
    have hmem := (reportedItems_sublist process visitedItems player.inventory).subset
      (List.mem_map_of_mem hentry)
    exact (lt_of_mem_visitedItems hmem).trans_le hitems
  have hparse : entriesOf UInt8 F reported.length
      ((FixedWidth.encode (UInt32.ofNat reported.length) ++ reported.flatMap entryBytes :
        List B).drop 4) = reported := by
    have hflat := entriesOf_flatMap (B := B) reported []
    rw [List.append_nil] at hflat
    rw [List.drop_left' (FixedWidth.length_encode _), hflat]
  rw [writeInventoryEvent_message, ← hreported] at hpos ⊢
  split at hpos
  · exact absurd hpos (Nat.lt_irrefl 0)
  next hsent =>
    rw [if_neg hsent]
    refine ⟨by decide, _, _, rfl, ?_, ?_⟩
    · intro _
      refine ⟨⟨by rw [hblock, hrest], fun _ => ?_⟩, by rw [hblock, hrest]⟩
      rw [hcount, hparse]
      exact hbelow
    · intro _
      have hlt : 4 + 5 * reported.length < 256 := by omega
      rw [ByteLike.toByte_ofByte, UInt8.toNat_ofNat_of_lt' hlt, hrest]

omit [LT F] [DecidableLT F] in
/-- An event that is sent has the type of events. -/
theorem messageType_writeEnemiesEvent (process : HobbitProcessAnalyzer B) (player : MainPlayer F)
    (hpos : 0 < (writeEnemiesEvent process player).1.message.length) :
    (writeEnemiesEvent process player).1.messageType = eventMessage := by
  unfold writeEnemiesEvent at hpos ⊢
  dsimp only at hpos ⊢
  split at hpos
  next hsent => rw [if_pos hsent]
  next => exact absurd hpos (Nat.lt_irrefl 0)

theorem messageType_writeInventoryEvent (process : HobbitProcessAnalyzer B)
    (player : MainPlayer F) (hpos : 0 < (writeInventoryEvent process player).1.message.length) :
    (writeInventoryEvent process player).1.messageType = eventMessage := by
  unfold writeInventoryEvent at hpos ⊢
  dsimp only at hpos ⊢
  split at hpos
  next hsent => rw [if_pos hsent]
  next => exact absurd hpos (Nat.lt_irrefl 0)

variable (F) in
/-- A message of a turn of `write` with at most `limit` changed enemies, whoever is
named as its sender. -/
def Written (limit : ℕ) (msg : BaseMessage B) : Prop :=
  ∃ (process : HobbitProcessAnalyzer B) (ptrs : BilboPtrs) (player : MainPlayer F),
    (reportedChanges process player.enemies).length ≤ limit ∧
      ∃ m ∈ (write process ptrs player).1,
        msg.messageType = m.messageType ∧ msg.message = m.message

theorem Written.stamp {limit : ℕ} {msg : BaseMessage B} (h : Written F limit msg) (id : UInt8) :
    Written F limit { msg with senderID := id } := h

/-- A written message is a snapshot, or an event with enemies or items. -/
theorem written_cases {limit : ℕ} {msg : BaseMessage B} (h : Written F limit msg)
    (hlimit : limit ≤ 20 ∨ limit ≤ 255 ∧ states.processLabel .enemiesHealth = true)
    (hitems : 56 ≤ items) :
    (msg.messageType = snapshotMessage ∧
      ∃ snap : Snapshot F, msg.message = (writeSnap snap : BaseMessage B).message) ∨
    msg.messageType = eventMessage ∧ (SingleBlock F states items .enemiesHealth msg.message ∨
      SingleBlock F states items .inventory msg.message) := by
  rcases h with ⟨process, ptrs, player, hfew, m, hm, htype, hmessage⟩
  rw [htype, hmessage]
  rcases mem_write hm with rfl | ⟨rfl, hpos⟩ | ⟨player', rfl, hpos⟩
  · exact .inl ⟨rfl, _, rfl⟩
  · refine .inr ⟨messageType_writeEnemiesEvent process player hpos, .inl ?_⟩
    apply singleBlock_writeEnemiesEvent process player hpos
    rcases hlimit with hlimit | ⟨hlimit, henabled⟩
    · exact .inl (hfew.trans hlimit)
    · exact .inr ⟨hfew.trans hlimit, henabled⟩
  · exact .inr ⟨messageType_writeInventoryEvent process player' hpos,
      .inr (singleBlock_writeInventoryEvent process player' hpos hitems)⟩

/-- What is written is not empty. -/
theorem Written.payload {limit : ℕ} {msg : BaseMessage B} (h : Written F limit msg) :
    0 < msg.message.length := by
  rcases h with ⟨process, ptrs, player, -, m, hm, -, hmessage⟩
  rw [hmessage]
  rcases mem_write hm with rfl | ⟨-, hpos⟩ | ⟨-, -, hpos⟩
  · rw [writeSnap_message]
    exact Nat.zero_lt_succ _
  · exact hpos
  · exact hpos

/-- The messages of `write` can be read by a client that has the 56 items. -/
theorem readable_of_written {limit : ℕ} {msg : BaseMessage B} (h : Written F limit msg)
    (hlimit : limit ≤ 20 ∨ limit ≤ 255 ∧ states.processLabel .enemiesHealth = true)
    (hitems : 56 ≤ items) : Readable F states items msg.message := by
  rcases written_cases h hlimit hitems with ⟨-, snap, hsnap⟩ | ⟨-, henemies | hinventory⟩
  · rw [hsnap]
    exact (singleBlock_writeSnap snap).readable
  · exact henemies.readable
  · exact hinventory.readable

end written

end HobbitSynchrony
