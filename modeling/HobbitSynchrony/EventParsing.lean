import HobbitSynchrony.DisabledLabels

/-! # Taking events apart

The two events that `MainPlayer` writes, as the loops of their readers take them
apart (`parseEntries`): a 32-bit count, and that many pairs of a key and a change.

* `parse_writeEnemiesEvent_iff`: an enemies event carries every change exactly if
  there are fewer than 256;
* `writeInventoryEvent_exact`: an inventory event carries what it should.
-/

namespace HobbitSynchrony

variable {B F : Type} [ByteLike B] [FixedWidth B F 4]

/-! ## Enemies events -/

namespace MainPlayer

section enemies

variable [Zero F] [Sub F] [BEq F]

/-- An enemies event carries every change exactly if there are fewer than 256:
only the low byte of the count is written. -/
theorem parse_writeEnemiesEvent_iff (process : HobbitProcessAnalyzer B) (player : MainPlayer F)
    (h : reportedChanges process player.enemies ≠ []) (g : GameState B F) :
    parseEntries UInt64 ⟨(writeEnemiesEvent process player).1.message.drop 2, g⟩ =
        .ok (reportedChanges process player.enemies) ⟨[], g⟩ ↔
      (reportedChanges process player.enemies).length < 256 := by
  have hmessage := writeEnemiesEvent_message process player
  have hpos := List.length_pos_of_ne_nil h
  rw [hmessage]
  constructor
  · intro hparse
    split at hparse
    · -- an empty message has no count
      have hshort : convert UInt32 (⟨([] : List B).drop 2, g⟩ : Handling B F) = _ :=
        convert_error (by simp)
      rw [parseEntries, bind_error hshort] at hparse
      cases hparse
    · have hlength := length_parseEntries (by omega) hparse
      omega
  · intro hlt
    have hsent : UInt32.ofNat (reportedChanges process player.enemies).length ≠ 0 := by
      intro hzero
      have hnat := congrArg UInt32.toNat hzero
      rw [UInt32.toNat_ofNat', Nat.mod_eq_of_lt (by omega)] at hnat
      exact absurd hnat (Nat.ne_of_gt hpos)
    rw [if_neg hsent, Nat.mod_eq_of_lt hlt]
    exact parseEntries_eventBlock _ _ (by omega) g

end enemies

/-- One changed enemy. -/
theorem parse_writeEnemiesEvent_one :
    parseEntries UInt64
        ⟨(writeEnemiesEvent crowdGame (crowd 1)).1.message.drop 2, crowdReceiver⟩ =
      .ok [(0x0701070707070707, (0x07070707 : UInt32))] ⟨[], crowdReceiver⟩ := by
  have hchanges : reportedChanges crowdGame (crowd 1).enemies =
      [(0x0701070707070707, 0x07070707)] := reportedChanges_crowd 1
  have hsome : reportedChanges crowdGame (crowd 1).enemies ≠ [] := by
    rw [hchanges]
    exact List.cons_ne_nil _ _
  have hfew : (reportedChanges crowdGame (crowd 1).enemies).length < 256 := by
    rw [hchanges]
    decide
  have hparse := (parse_writeEnemiesEvent_iff crowdGame (crowd 1) hsome crowdReceiver).2 hfew
  rw [hchanges] at hparse
  exact hparse

/-- 256 changed enemies: the count that is sent is 0. -/
theorem parse_writeEnemiesEvent_256 :
    ¬ ∀ player : MainPlayer UInt32, reportedChanges crowdGame player.enemies ≠ [] →
      parseEntries UInt64 ⟨(writeEnemiesEvent crowdGame player).1.message.drop 2, crowdReceiver⟩ =
        .ok (reportedChanges crowdGame player.enemies) ⟨[], crowdReceiver⟩ := by
  intro h
  have hlength := length_reportedChanges_crowd (Nat.succ_pos 255)
  have hsome : reportedChanges crowdGame (crowd 256).enemies ≠ [] := by
    intro hnil
    rw [hnil] at hlength
    cases hlength
  have hparse := h (crowd 256) hsome
  have hmessage := crowd_message (Nat.succ_pos 255) (by decide)
  have hdrop : ((writeEnemiesEvent crowdGame (crowd 256)).1.message).drop 2 =
      FixedWidth.encode (0 : UInt32) ++
        (List.replicate (12 * (256 - 1) + 6) 7 ++ [1, 7, 7, 7, 7, 7]) := by
    rw [hmessage]
    exact rfl
  rw [hdrop, parseEntries, bind_ok (convert_encode _ _ _)] at hparse
  injection hparse with hnone _
  exact hsome hnone.symm

end MainPlayer

/-! ## Inventory events -/

/-- The items that the loop of `writeInventoryEvent` jumps over. -/
def JumpedOver (item : UInt8) : Prop :=
  2 ≤ item ∧ item ≤ 5 ∨ 8 ≤ item ∧ item ≤ 19 ∨ 23 ≤ item ∧ item ≤ 24 ∨
    26 ≤ item ∧ item ≤ 27 ∨ item = 46 ∨ 50 ≤ item ∧ item ≤ 51

instance (item : UInt8) : Decidable (JumpedOver item) := inferInstanceAs (Decidable (_ ∨ _))

/-- The loop visits its items in ascending order. -/
theorem pairwise_visitedItems : visitedItems.Pairwise (· < ·) := by decide

theorem not_jumpedOver_of_mem_visitedItems {item : UInt8} (h : item ∈ visitedItems) :
    item < 56 ∧ ¬ JumpedOver item := by
  have hall : (visitedItems.all fun i => decide (i < 56 ∧ ¬ JumpedOver i)) = true := by decide
  exact of_decide_eq_true (List.all_eq_true.1 hall item h)

namespace MainPlayer

section inventory

variable [Zero F] [Sub F] [BEq F] [LT F] [DecidableLT F]

omit [ByteLike B] in
/-- The change of a reported item is against the count from before the loop. -/
theorem change_reportedItems (process : HobbitProcessAnalyzer B) {items : List UInt8}
    (hnodup : items.Nodup) {inventory : List (UInt8 × F)} :
    ∀ entry ∈ reportedItems process items inventory,
      entry.2 = currentCount process entry.1 - countAt inventory entry.1 := by
  induction items generalizing inventory with
  | nil =>
      intro entry hentry
      cases hentry
  | cons i items ih =>
      rw [List.nodup_cons] at hnodup
      intro entry hentry
      rw [reportedItems] at hentry
      split at hentry
      · rcases List.mem_cons.1 hentry with rfl | hrest
        · exact rfl
        · -- a later item is another one
          have hmem : entry.1 ∈ items :=
            (reportedItems_sublist process items _).subset (List.mem_map_of_mem hrest)
          have hne : entry.1 ≠ i := by
            rintro rfl
            exact hnodup.1 hmem
          rw [ih hnodup.2 entry hrest, countAt_setCountAt_of_ne hne]
      · exact ih hnodup.2 entry hentry

/-- The message of `writeInventoryEvent`, if there is one: the size byte and the
count are right, the pairs name the changes of items in ascending order, none of
which is jumped over, and the reader's loop gets exactly them. -/
theorem writeInventoryEvent_exact (process : HobbitProcessAnalyzer B) (player : MainPlayer F)
    (hinventory : 56 ≤ player.inventory.length)
    (h : (writeInventoryEvent process player).1.message ≠ []) (g : GameState B F) :
    ∃ (size : UInt8) (count : UInt32) (pairs : List (UInt8 × F)),
      (writeInventoryEvent process player).1.message =
        ByteLike.ofByte DataLabel.inventory.toByte :: ByteLike.ofByte size ::
          (FixedWidth.encode count ++ pairs.flatMap entryBytes) ∧
      size.toNat = ((writeInventoryEvent process player).1.message.drop 2).length ∧
      count.toNat = pairs.length ∧
      (pairs.map Prod.fst).Pairwise (· < ·) ∧
      (∀ pair ∈ pairs, pair.1 < 56 ∧ ¬ JumpedOver pair.1 ∧
        ∃ entry, player.inventory[pair.1.toNat]? = some entry ∧
          pair.2 = currentCount process pair.1 - entry.2) ∧
      parseEntries UInt8 ⟨(writeInventoryEvent process player).1.message.drop 2, g⟩ =
        .ok pairs ⟨[], g⟩ := by
  have hmessage := writeInventoryEvent_message process player
  have hsome : (reportedItems process visitedItems player.inventory).length ≠ 0 := by
    intro hzero
    rw [if_pos hzero] at hmessage
    exact h hmessage
  rw [if_neg hsome] at hmessage
  have hlength := length_reportedItems_le process player.inventory
  have hsublist := reportedItems_sublist process visitedItems player.inventory
  have hbytes : ((reportedItems process visitedItems player.inventory).flatMap entryBytes :
      List B).length = 5 * (reportedItems process visitedItems player.inventory).length :=
    length_flatMap_entryBytes _
  refine ⟨UInt8.ofNat (4 + 5 * (reportedItems process visitedItems player.inventory).length),
    UInt32.ofNat (reportedItems process visitedItems player.inventory).length,
    reportedItems process visitedItems player.inventory, hmessage, ?_, ?_, ?_, ?_, ?_⟩
  · have hcount : (FixedWidth.encode (UInt32.ofNat
        (reportedItems process visitedItems player.inventory).length) : List B).length = 4 :=
      FixedWidth.length_encode _
    have hsize : 4 + 5 * (reportedItems process visitedItems player.inventory).length < 256 := by
      omega
    rw [hmessage, eventBlock, List.drop_succ_cons, List.drop_succ_cons, List.drop_zero,
      List.length_append, hcount, hbytes, UInt8.toNat_ofNat_of_lt' hsize]
  · rw [UInt32.toNat_ofNat', Nat.mod_eq_of_lt (by omega)]
  · exact pairwise_visitedItems.sublist hsublist
  · intro pair hpair
    have hvisited := hsublist.subset (List.mem_map_of_mem hpair)
    rcases not_jumpedOver_of_mem_visitedItems hvisited with ⟨hlt, hout⟩
    have hin : pair.1.toNat < player.inventory.length :=
      Nat.lt_of_lt_of_le (UInt8.lt_iff_toNat_lt.1 hlt) hinventory
    refine ⟨hlt, hout, player.inventory[pair.1.toNat], List.getElem?_eq_getElem hin, ?_⟩
    rw [change_reportedItems process nodup_visitedItems pair hpair, countAt,
      List.getElem?_eq_getElem hin]
  · rw [hmessage]
    exact parseEntries_eventBlock _ _ (by omega) g

end inventory

/-- A player who has recorded 0 for every item. -/
def emptyBag : MainPlayer UInt32 where
  level := 0
  enemies := []
  inventory := (List.range 56).map fun item => (UInt8.ofNat item, 0)

/-- A game in which every count differs from the recorded one. -/
theorem writeInventoryEvent_exact_emptyBag : ∃ pairs : List (UInt8 × UInt32),
    (pairs.map Prod.fst).Pairwise (· < ·) ∧
      parseEntries UInt8
          ⟨(writeInventoryEvent crowdGame emptyBag).1.message.drop 2, crowdReceiver⟩ =
        .ok pairs ⟨[], crowdReceiver⟩ := by
  have hvisited : visitedItems = 0 :: visits 55 1 := rfl
  have hzero : reports crowdGame emptyBag.inventory 0 = true := by decide
  have hsent : (writeInventoryEvent crowdGame emptyBag).1.message ≠ [] := by
    rw [writeInventoryEvent_message, hvisited, reportedItems, if_pos hzero, List.length_cons,
      if_neg (Nat.succ_ne_zero _)]
    exact List.cons_ne_nil _ _
  rcases writeInventoryEvent_exact crowdGame emptyBag (by decide) hsent crowdReceiver with
    ⟨_, _, pairs, _, _, _, hsorted, _, hparse⟩
  exact ⟨pairs, hsorted, hparse⟩

end MainPlayer

end HobbitSynchrony
