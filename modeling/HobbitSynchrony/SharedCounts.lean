import HobbitSynchrony.GameFootprint
import HobbitSynchrony.InventorySync
import HobbitSynchrony.SharedValues

/-! # The counts of the items, shared by all clients

The count of an item, in the games of all clients that play together: through the
update threads with their seven figures and their snapshots, the enemies in between, the
server, the sockets and the inboxes.

* `countReplica`: the count of an item;
* `Stocked`, `Stocked.next`: a program whose other writes are elsewhere;
* `keepsUnder_counts`: these writes;
* `countReplica_lawful`: what the update thread does to the count;
* `counts_from_rest_to_rest`: the counts in whole runs.
-/

namespace HobbitSynchrony

open AddressSpace Transition HobbitProcessAnalyzer

namespace Multiplayer

variable {F : Type}

/-- The count of an item, with what is recorded of it. -/
def countReplica (F : Type) [FixedWidth UInt8 F 4] [AddCommGroup F] (item : UInt8) :
    Replica F F where
  value := fun g => currentCount g.process item
  shared := recordedCount item
  label := .inventory
  deltas := fun payload => deltasOf item (eventEntries UInt8 F payload)

@[simp] theorem countReplica_label [FixedWidth UInt8 F 4] [AddCommGroup F] (item : UInt8) :
    (countReplica F item).label = .inventory := rfl

@[simp] theorem countReplica_value [FixedWidth UInt8 F 4] [AddCommGroup F] (item : UInt8)
    (g : GameState UInt8 F) : (countReplica F item).value g = currentCount g.process item := rfl

@[simp] theorem countReplica_shared [FixedWidth UInt8 F 4] [AddCommGroup F] (item : UInt8)
    (g : GameState UInt8 F) : (countReplica F item).shared g = recordedCount item g := rfl

theorem enemiesHealth_ne_inventory :
    DataLabel.enemiesHealth.toByte ≠ DataLabel.inventory.toByte := by decide

/-- The game is found, the items are recorded, and neither a figure nor an enemy lies
where the counts are. -/
structure Stocked (h : Program F) : Prop where
  client : InventoryClient h.game
  figures : ∀ i address, (h.npcs i).HasCell F address → ∀ item,
    Apart address 4 (itemAddress item) 4
  enemies : ∀ address, EnemyCell h.game address → ∀ item, Apart address 4 (itemAddress item) 4

theorem Stocked.next {h h' : Program F} (hs : Stocked h) (hclient : InventoryClient h'.game)
    (henemies : h'.game.mainPlayer.enemies.map Prod.fst = h.game.mainPlayer.enemies.map Prod.fst)
    (hnpcs : h'.npcs = h.npcs) : Stocked h' where
  client := hclient
  figures := by
    rw [hnpcs]
    exact hs.figures
  enemies := by
    intro address haddress
    exact hs.enemies address ((enemyCell_congr henemies address).1 haddress)

/-! ## Writes elsewhere -/

section report

variable [FixedWidth UInt8 F 4] [Zero F] [Sub F] [BEq F]

/-- The game of a client that has written the event of the enemies. -/
def reportEnemies (g : GameState UInt8 F) : GameState UInt8 F :=
  { g with mainPlayer := (MainPlayer.writeEnemiesEvent g.process g.mainPlayer).2 }

/-- It has recorded the items as before. -/
theorem inventory_reportEnemies (g : GameState UInt8 F) :
    (reportEnemies g).mainPlayer.inventory = g.mainPlayer.inventory := by
  unfold reportEnemies MainPlayer.writeEnemiesEvent
  dsimp only
  split
  · rfl
  · rfl

end report

variable [FixedWidth UInt8 F 4] [AddCommGroup F]

variable (F) in
/-- The process has all counts of another one. -/
def SameCounts (process process' : HobbitProcessAnalyzer UInt8) : Prop :=
  process'.isProcessSet = process.isProcessSet ∧
    ∀ item, (currentCount process' item : F) = currentCount process item

theorem keepsUnder_counts {Cell : UInt32 → Prop}
    (h : ∀ address, Cell address → ∀ item, Apart address 4 (itemAddress item) 4)
    (process : HobbitProcessAnalyzer UInt8) : KeepsUnder Cell (SameCounts F process) := by
  intro p address bytes haddress hlength hsame
  refine ⟨hsame.1, ?_⟩
  intro item
  rw [← hsame.2 item]
  apply readData_store_of_apart
  rw [hlength]
  exact h address haddress item

/-! ## The turns -/

variable [LinearOrder F]

theorem inventoryClient_reportEnemies {g : GameState UInt8 F} (hg : InventoryClient g) :
    InventoryClient (reportEnemies g) where
  isProcessSet := hg.isProcessSet
  inventory := by
    rw [inventory_reportEnemies]
    exact hg.inventory

/-- An event of the inventory is handled by its handler. -/
theorem gameAfter_inventoryEvent {states : LabelStates} {payload : List UInt8}
    {g : GameState UInt8 F} (enabled : states.processLabel .inventory = true)
    (hevent : InventoryEvent F payload)
    (hhead : payload.head? = some DataLabel.inventory.toByte) (hg : InventoryClient g)
    (senderID : UInt8) :
    gameAfter (readGameMessage states senderID ⟨payload, g⟩) = processInventory payload g := by
  rcases hevent with ⟨label, size, entries, rfl, hsub⟩
  have hlabel : label = ByteLike.ofByte DataLabel.inventory.toByte := Option.some.inj hhead
  have hlength := hsub.length_le
  have hvisited : visitedItems.length < 2 ^ 32 := by decide
  rw [List.length_map] at hlength
  have hbelow : ItemsBelow g.mainPlayer.inventory.length entries := by
    intro entry hentry
    exact hg.visited_lt _ (hsub.subset (List.mem_map.2 ⟨entry, hentry, rfl⟩))
  have hlt := hlength.trans_lt hvisited
  rw [hlabel, readGameMessage_inventory enabled senderID size entries hlt hbelow,
    processInventory_eventBlock _ size entries hlt hbelow]
  rfl

/-- The update thread reports the count and applies what others report, as the handlers
do it on their own. -/
theorem countReplica_lawful {limit : ℕ} {item : UInt8} (hitem : Tracked item) :
    (countReplica F item).Lawful limit Stocked (InventoryEvent F)
      (fun payload g => NotBelowZero payload g ∧ CountsSynced payload g) where
  congr := by
    intro h h' hs hplayer hprocess hnpcs
    have hclient : InventoryClient h'.game :=
      ⟨hprocess ▸ hs.client.isProcessSet, hplayer ▸ hs.client.inventory⟩
    refine ⟨hs.next hclient (by rw [hplayer]) hnpcs, ?_, ?_⟩
    · exact congrArg (fun process => (currentCount process item : F)) hprocess
    · exact congrArg (fun player => MainPlayer.countAt player.inventory item) hplayer
  figure := by
    intro h h' hs id i hgame hnpcs
    have hsame : SameCounts F h.game.process (processPlayer id (h.npcs i)
        (h.game.connectedPlayers i) (.start h.game.process)).process :=
      processPlayer_keeps (keepsUnder_counts (hs.figures i) h.game.process) id _ ⟨rfl, fun _ => rfl⟩
    have hclient : InventoryClient h'.game := by
      rw [hgame]
      exact ⟨hsame.1.trans hs.client.isProcessSet, hs.client.inventory⟩
    refine ⟨hs.next hclient (by rw [hgame]) hnpcs, ?_, ?_⟩
    · rw [hgame]
      exact hsame.2 item
    · rw [hgame]
      rfl
  write := by
    intro h h' hs hgood hgame hnpcs
    have hafter : h'.game = (sendInventory (reportEnemies h.game)).2 := hgame
    rcases sendInventory_client (inventoryClient_reportEnemies hs.client) hitem with
      ⟨hclient, hprocess, hcount⟩
    refine ⟨hs.next (hafter ▸ hclient) ?_ hnpcs, ?_, ?_⟩
    · rw [hgame]
      exact enemies_write_fst h.game.process h.ptrs h.game.mainPlayer
    · rw [hafter]
      exact congrArg (fun process => (currentCount process item : F)) hprocess
    · rw [hafter]
      exact hcount
  event := by
    intro h hs hgood
    have hshared : recordedCount item (reportEnemies h.game) = recordedCount item h.game :=
      congrArg (MainPlayer.countAt · item) (inventory_reportEnemies h.game)
    rcases (inventoryView_lawful hitem).event _ (inventoryClient_reportEnemies hs.client) trivial
      with ⟨hevent, hdeltas⟩
    have hsum : ((sendInventory (reportEnemies h.game)).1.toList.flatMap
        (inventoryView UInt8 F item).deltas).sum =
          currentCount h.game.process item - recordedCount item h.game := by
      rw [← hshared]
      exact sum_eq_sub hdeltas
    constructor
    · rw [changes_write, countReplica_label, if_neg enemiesHealth_ne_inventory, if_pos rfl,
        List.nil_append]
      exact hsum
    · apply sound_write
      · intro hlabel
        exact absurd hlabel enemiesHealth_ne_inventory
      · intro _
        exact hevent
  read := by
    intro h h' msg hs hgood hactive hwritten htype hok hread henabled senderID hgame hnpcs
    have henemies : h'.game.mainPlayer.enemies.map Prod.fst =
        h.game.mainPlayer.enemies.map Prod.fst := by
      rw [hgame]
      exact (readGameMessage_within (changeRelation_cells (P := fun _ => True))
        h.messageLabelStates senderID msg.message h.game).1
    rcases hgood.single_event hactive hwritten htype with ⟨label, rfl | rfl, hblock⟩
    · -- the enemies; the counts stay as they are
      have hnone : (countReplica F item).changes msg = [] :=
        changes_of_block hblock enemiesHealth_ne_inventory
      have honly : EnemiesOnly (SameCounts F h.game.process) h.game h'.game := by
        rw [hgame]
        exact enemiesOnly_of_block hblock senderID
      have hsame := honly.keeps (keepsUnder_counts hs.enemies _) ⟨rfl, fun _ => rfl⟩
      have hclient : InventoryClient h'.game :=
        ⟨hsame.1.trans hs.client.isProcessSet, honly.inventory ▸ hs.client.inventory⟩
      refine ⟨hs.next hclient henemies hnpcs, ?_, ?_⟩
      · rw [hnone, List.sum_nil, add_zero]
        exact hsame.2 item
      · rw [hnone, List.sum_nil, add_zero]
        exact congrArg (MainPlayer.countAt · item) honly.inventory
    · -- the items
      have hupdate : (countReplica F item).IsUpdate msg := isUpdate_of_block hblock rfl htype
      have hafter : h'.game = processInventory msg.message h.game :=
        hgame.trans (gameAfter_inventoryEvent henabled (hok hupdate) hupdate.2 hs.client senderID)
      rcases (inventoryView_lawful hitem).process msg.message h.game hs.client (hok hupdate)
        (hread hupdate) with ⟨hclient, hvalue, hshared⟩
      have hchanges : (countReplica F item).changes msg =
          (inventoryView UInt8 F item).deltas msg.message := if_pos hupdate
      rw [hchanges, hafter]
      refine ⟨hs.next (hafter ▸ hclient) henemies hnpcs, hvalue, hshared⟩

/-- Nobody joins, leaves or enters a level, and every event finds the counts it names as
they were recorded, and takes none of them below zero. -/
def CountsMeet (limit : ℕ) (item : UInt8) (w : World F) (a : Action F) : Prop :=
  Manageable limit w a ∧ Plays (countReplica F item) Stocked
    (fun payload g => NotBelowZero payload g ∧ CountsSynced payload g) w a

/-- The floats as their bits, in the order of the bits. -/
local instance bitOrder : LinearOrder UInt32 where
  le_refl := UInt32.le_refl
  le_trans := fun _ _ _ => UInt32.le_trans
  le_antisymm := fun _ _ => UInt32.le_antisymm
  le_total := UInt32.le_total
  lt_iff_le_not_ge := fun a b => by
    rw [UInt32.lt_iff_toNat_lt, UInt32.le_iff_toNat_le, UInt32.le_iff_toNat_le]
    omega
  toDecidableLE := inferInstance
  toDecidableEq := instDecidableEqUInt32
  toDecidableLT := inferInstance

omit [FixedWidth UInt8 F 4] [AddCommGroup F] [LinearOrder F] in
/-- Figures that have not been found are at the bottom of the memory. -/
theorem toNat_le_of_new {address : UInt32} (h : NPC.new.HasCell F address) :
    address.toNat ≤ 0x300 := by
  rcases h with ⟨setter, hmem⟩
  cases setter with
  | positionX | positionY | positionZ => cases hmem
  | rotationY | animation | weapon =>
      obtain rfl := List.mem_singleton.1 hmem
      decide
  | animFrames =>
      rcases List.mem_cons.1 hmem with rfl | hmem
      · decide
      · obtain rfl := List.mem_singleton.1 hmem
        decide

omit [FixedWidth UInt8 F 4] [AddCommGroup F] [LinearOrder F] in
theorem apart_of_new {address : UInt32} (h : NPC.new.HasCell F address) (item : UInt8) :
    Apart address 4 (itemAddress item) 4 := by
  have hitem := toNat_itemAddress item
  have hlt := item.toNat_lt
  have hlow := toNat_le_of_new h
  exact apart_of_le (by omega) (by omega)

omit [FixedWidth UInt8 F 4] [AddCommGroup F] [LinearOrder F] in
/-- So a game without figures and enemies is stocked. -/
theorem stocked_of_new {h : Program F} (hclient : InventoryClient h.game)
    (hnpcs : ∀ i, h.npcs i = NPC.new) (henemies : h.game.mainPlayer.enemies = []) :
    Stocked h where
  client := hclient
  figures := by
    intro i address haddress
    rw [hnpcs i] at haddress
    exact apart_of_new haddress
  enemies := by
    rintro address ⟨enemy, henemy, -⟩
    rw [henemies] at henemy
    cases henemy

/-- The update thread is at its events. -/
def UpdatePoint.AtEvents : UpdatePoint → Bool
  | .events => true
  | _ => false

theorem eq_events {point : UpdatePoint} (h : point.AtEvents = true) : point = .events := by
  unfold UpdatePoint.AtEvents at h
  split at h
  · rfl
  · cases h

/-- Nobody joins or leaves, and the update threads that go on have no events. -/
def Eventless (w : World F) : Action F → Prop
  | .net a => a.Calm
  | .update n => (w.net.conn n).client.eventMessages.length = 0
  | _ => False

instance (w : World F) (a : Action F) : Decidable (Eventless w a) :=
  match a with
  | .net a => inferInstanceAs (Decidable a.Calm)
  | .update _ => inferInstanceAs (Decidable (_ = 0))
  | .join _ _ _ _ | .rejoin _ _ _ | .start _ | .play _ _ | .enterNewLevel _ | .exitLevel _ |
    .setLabel _ _ _ => instDecidableFalse

omit [FixedWidth UInt8 F 4] [AddCommGroup F] [LinearOrder F] in
/-- Such steps meet what a shared value needs. -/
theorem plays_of_eventless {R : Replica F F} {Inv : Program F → Prop}
    {readOk : List UInt8 → GameState UInt8 F → Prop} {w : World F} {a : Action F}
    (h : Eventless w a) : Plays R Inv readOk w a := by
  cases a with
  | net a => exact h
  | update n =>
      intro _ hupdate
      have hempty : (w.net.conn n).client.eventMessages = [] := List.length_eq_zero_iff.1 h
      have hhead := hupdate.2
      unfold Client.frontEventMessage at hhead
      rw [hempty] at hhead
      cases hhead
  | join | rejoin | start | play | enterNewLevel | exitLevel | setLabel => exact h.elim

omit [AddCommGroup F] [LinearOrder F] in
theorem manageable_of_eventless [Zero F] {limit : ℕ} {w : World F} {a : Action F}
    (h : Eventless w a) : Manageable limit w a := by
  cases a with
  | net | update => exact trivial
  | join | rejoin | start | play | enterNewLevel | exitLevel | setLabel => exact h.elim

/-- One piece of item 0. -/
def onePiece : HobbitProcessAnalyzer UInt8 := blankProcess.writeData (itemAddress 0) (1 : UInt32)

/-- The first client picks it up. -/
def afterPick : World UInt32 :=
  { afterMeet with
    program := Function.update afterMeet.program 0 { afterMeet.program 0 with
      game := { (afterMeet.program 0).game with process := onePiece } } }

/-- The first client takes a turn, and its snapshot and its event get to the second one,
which is at its events. -/
def pickTurn : List (Action UInt32) :=
  List.replicate 14 (.update 0) ++ [.net (.read 0), .net (.broadcast 0), .net (.read 0),
    .net (.broadcast 0)] ++ List.replicate 2 (.update 1) ++ List.replicate 2 (.net (.deliver 1))

set_option maxRecDepth 4000 in
theorem isSome_pickTurn : (exec (guardFn World.next Eventless) afterPick pickTurn).isSome := by
  decide

/-- The world when the second client is about to handle the event. -/
def afterReport : World UInt32 :=
  (exec (guardFn World.next Eventless) afterPick pickTurn).get isSome_pickTurn

set_option maxRecDepth 8000 in
theorem afterMeet_counts : afterMeet.net.accepts = 2 ∧
    (∀ n < 2, Present n afterMeet.net.clients) ∧
    (∀ n < 2, (afterMeet.program n).game.process.isProcessSet = true) ∧
    (∀ n < 2, 56 ≤ (afterMeet.program n).game.mainPlayer.inventory.length) ∧
    (∀ n < 2, ∀ i, (afterMeet.program n).npcs i = NPC.new) ∧
    (∀ n < 2, (afterMeet.program n).game.mainPlayer.enemies.length = 0) ∧
    (∀ n < 2, (afterMeet.program n).messageLabelStates.processLabel .inventory = true) ∧
    (∀ n < 2, (countReplica UInt32 0).shared (afterMeet.program n).game =
      (countReplica UInt32 0).value (afterMeet.program n).game) ∧
    ∀ n < 2, (afterMeet.updates (countReplica UInt32 0) n).length = 0 := by
  refine ⟨?_, ?_, ?_, ?_, ?_, ?_, ?_, ?_, ?_⟩ <;> decide

theorem ready_afterMeet : Ready (countReplica UInt32 0) Stocked afterMeet := by
  rcases afterMeet_counts with ⟨haccepts, hpresent, hset, hinventory, hnpcs, henemies, henabled,
    hshared, hupdates⟩
  rw [← haccepts] at hpresent hset hinventory hnpcs henemies henabled hshared hupdates
  refine ⟨by rw [haccepts]; decide, hpresent, ?_, henabled, hshared, ?_⟩
  · intro n hn
    exact stocked_of_new ⟨hset n hn, hinventory n hn⟩ (hnpcs n hn)
      (List.length_eq_zero_iff.1 (henemies n hn))
  · intro n hn
    exact List.length_eq_zero_iff.1 (hupdates n hn)

set_option maxRecDepth 8000 in
theorem afterReport_event : afterReport.net.accepts = 2 ∧
    (afterReport.program 1).thread.AtEvents = true ∧
    0 < (afterReport.net.conn 1).client.eventMessagesSize ∧
    (afterReport.net.conn 1).client.eventMessages.tail.length = 0 ∧
    (afterReport.net.conn 1).inFlight.length = 0 ∧
    ((afterReport.net.conn 1).outgoing (countReplica UInt32 0).updates).length = 0 ∧
    (afterReport.updates (countReplica UInt32 0) 0).length = 0 ∧
    (countReplica UInt32 0).shared (afterReport.program 0).game =
      (countReplica UInt32 0).value (afterReport.program 0).game ∧
    ∀ item ∈ visitedItems, (countReplica UInt32 item).shared (afterReport.program 1).game =
      (countReplica UInt32 item).value (afterReport.program 1).game := by
  refine ⟨?_, ?_, ?_, ?_, ?_, ?_, ?_, ?_, ?_⟩ <;> decide

theorem countsMeet_of_eventless {limit : ℕ} {item : UInt8} {w : World F} {a : Action F}
    (h : Eventless w a) : CountsMeet limit item w a :=
  ⟨manageable_of_eventless h, plays_of_eventless h⟩

/-- The pick-up changes nothing but the count. -/
theorem run_pick : Run (Guarded World.step (CountsMeet 20 0)) afterMeet
    (.play 0 onePiece :: pickTurn) afterReport := by
  rcases afterMeet_counts with ⟨haccepts, -, -, hinventory, hnpcs, henemies, -, -, -⟩
  have hclient : InventoryClient { (afterMeet.program 0).game with process := onePiece } :=
    ⟨rfl, hinventory 0 (by decide)⟩
  have hstocked : Stocked { afterMeet.program 0 with
      game := { (afterMeet.program 0).game with process := onePiece } } :=
    stocked_of_new hclient (hnpcs 0 (by decide))
      (List.length_eq_zero_iff.1 (henemies 0 (by decide)))
  have hpick : World.step afterMeet (.play 0 onePiece) afterPick := by
    show (if 0 < afterMeet.net.accepts then some afterPick else none) = some afterPick
    rw [haccepts]
    rfl
  have hfirst : Run (Guarded World.step (CountsMeet 20 0)) afterMeet [.play 0 onePiece] afterPick :=
    Run.single ⟨hpick, trivial, hstocked, rfl⟩
  exact hfirst.append ((run_of_isSome isSome_pickTurn).mono fun _ _ _ h =>
    ⟨h.1, countsMeet_of_eventless h.2⟩)

end Multiplayer

end HobbitSynchrony
