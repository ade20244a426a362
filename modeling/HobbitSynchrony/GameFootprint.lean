import HobbitSynchrony.GenuineSnapshots
import HobbitSynchrony.PlayerWrites

/-! # What a client writes into its game

The update thread writes four bytes at a time: into the figures of the other players,
into the counts of the items, and into the healths of the enemies that were listed when
the level was entered. All other memory of the game stays as it is, whatever messages
come in.

* `KeepsUnder`: what is kept by writes into cells;
* `processPlayer_keeps`: the figures;
* `EnemiesOnly`, `ItemsOnly`, `changeRelation_cells`: the messages;
* `Program.Cell`, `update_keeps`: all that a step of the update thread writes;
* `memory_untouched`: the rest of the memory, in whole runs.
-/

namespace HobbitSynchrony

open AddressSpace Transition HobbitProcessAnalyzer

variable {B F : Type}

/-- A property of the process is kept by four bytes in one of the cells. -/
def KeepsUnder (Cell : UInt32 → Prop) (P : HobbitProcessAnalyzer B → Prop) : Prop :=
  ∀ (p : HobbitProcessAnalyzer B) (address : UInt32) (bytes : List B), Cell address →
    bytes.length = 4 → P p → P { p with memory := store p.memory address bytes }

/-- Such bytes are not read elsewhere. -/
theorem readData_store_of_apart {T : Type} {n : ℕ} [FixedWidth B T n] [OfNat T 0]
    {p : HobbitProcessAnalyzer B} {address b : UInt32} {bytes : List B}
    (h : Apart address bytes.length b n) :
    ({ p with memory := store p.memory address bytes } : HobbitProcessAnalyzer B).readData T b =
      p.readData T b := by
  unfold HobbitProcessAnalyzer.readData AddressSpace.read
  dsimp only
  rw [load_store_of_apart h]

theorem KeepsUnder.writeData {Cell : UInt32 → Prop} {P : HobbitProcessAnalyzer B → Prop}
    (h : KeepsUnder Cell P) {T : Type} [FixedWidth B T 4] {p : HobbitProcessAnalyzer B}
    {address : UInt32} (haddress : Cell address) (data : T) (hp : P p) :
    P (p.writeData address data) := by
  unfold HobbitProcessAnalyzer.writeData
  split
  · exact h p address _ haddress (FixedWidth.length_encode data) hp
  · exact hp

/-! ## The figures -/

section figures

variable [ByteLike B] [FixedWidth B F 4] {P : HobbitProcessAnalyzer B → Prop}

variable (F) in
/-- An address that one of the setters of the figure writes to. -/
def NPC.HasCell (npc : NPC) (address : UInt32) : Prop :=
  ∃ setter : NPC.Setter F, address ∈ setter.addresses npc

omit [ByteLike B] in
theorem writeEach_keeps {Cell : UInt32 → Prop} (h : KeepsUnder Cell P) {T : Type}
    [FixedWidth B T 4] {addresses : List UInt32} (haddresses : ∀ a ∈ addresses, Cell a) (data : T)
    {w : GameWrites B} (hw : P w.process) : P (w.writeEach addresses data).process := by
  unfold GameWrites.writeEach
  induction addresses generalizing w with
  | nil => exact hw
  | cons address addresses ih =>
      rw [List.foldl_cons]
      apply ih fun a ha => haddresses a (List.mem_cons_of_mem _ ha)
      exact h.writeData (haddresses address List.mem_cons_self) data hw

theorem setter_keeps {npc : NPC} (h : KeepsUnder (npc.HasCell F) P) (setter : NPC.Setter F)
    {w : GameWrites B} (hw : P w.process) : P (setter.apply npc w).process := by
  have hcell : ∀ a ∈ setter.addresses npc, npc.HasCell F a := fun a ha => ⟨setter, ha⟩
  cases setter with
  | positionX newPosition | positionY newPosition | positionZ newPosition =>
      exact writeEach_keeps h hcell newPosition hw
  | rotationY newRotation => exact h.writeData (hcell _ List.mem_cons_self) newRotation hw
  | animation newAnimation => exact h.writeData (hcell _ List.mem_cons_self) newAnimation hw
  | animFrames newAnimFrame newLastAnimFrame =>
      refine h.writeData (hcell _ (List.mem_cons_of_mem _ List.mem_cons_self)) newLastAnimFrame ?_
      exact h.writeData (hcell _ List.mem_cons_self) newAnimFrame hw
  | weapon newWeapon => exact h.writeData (hcell _ List.mem_cons_self) newWeapon hw

theorem setters_keep {npc : NPC} (h : KeepsUnder (npc.HasCell F) P)
    (setters : List (NPC.Setter F)) {w : GameWrites B} (hw : P w.process) :
    P (NPC.Setter.applyAll npc setters w).process := by
  unfold NPC.Setter.applyAll
  induction setters generalizing w with
  | nil => exact hw
  | cons setter setters ih => exact ih (setter_keeps h setter hw)

/-- What showing a player keeps. -/
theorem processPlayer_keeps {npc : NPC} (h : KeepsUnder (npc.HasCell F) P) (myId : UInt8)
    (p : ConnectedPlayer F) {w : GameWrites B} (hw : P w.process) :
    P (processPlayer myId npc p w).process := by
  rw [processPlayer_eq]
  split
  · rcases showSnapshot_eq npc p.snapshot w with ⟨weapon, hshow⟩
    rw [hshow]
    exact setters_keep h _ hw
  · exact hw

/-! ## The messages -/

/-- The count of an item. -/
def ItemCell (address : UInt32) : Prop := ∃ item, address = itemAddress item

/-- The health of a listed enemy. -/
def EnemyCell (g : GameState B F) (address : UInt32) : Prop :=
  ∃ enemy ∈ g.mainPlayer.enemies.map Prod.fst, address = healthAddress enemy

/-- One of the two. -/
def MessageCell (g : GameState B F) (address : UInt32) : Prop :=
  ItemCell address ∨ EnemyCell g address

omit [ByteLike B] [FixedWidth B F 4] in
theorem enemyCell_congr {g g' : GameState B F}
    (h : g'.mainPlayer.enemies.map Prod.fst = g.mainPlayer.enemies.map Prod.fst)
    (address : UInt32) : EnemyCell g' address ↔ EnemyCell g address := by
  unfold EnemyCell
  rw [h]

omit [ByteLike B] [FixedWidth B F 4] in
/-- Another health of an enemy is recorded, and the same enemies are listed. -/
theorem enemies_set {enemies : List (UInt32 × F)} {k : ℕ} {e : UInt32 × F}
    (hget : enemies[k]? = some e) (health : F) :
    (enemies.set k (e.1, health)).map Prod.fst = enemies.map Prod.fst := by
  rcases List.getElem?_eq_some_iff.1 hget with ⟨hk, rfl⟩
  rw [List.map_set, ← List.getElem_map Prod.fst (h := by rwa [List.length_map]),
    List.set_getElem_self]

variable (P) in
/-- The healths of the listed enemies have changed, at most. -/
structure EnemiesOnly (g g' : GameState B F) : Prop where
  enemies : g'.mainPlayer.enemies.map Prod.fst = g.mainPlayer.enemies.map Prod.fst
  inventory : g'.mainPlayer.inventory = g.mainPlayer.inventory
  keeps : KeepsUnder (EnemyCell g) P → P g.process → P g'.process

variable (P) in
/-- The counts of the items have changed, at most. -/
structure ItemsOnly (g g' : GameState B F) : Prop where
  enemies : g'.mainPlayer.enemies = g.mainPlayer.enemies
  inventory : g'.mainPlayer.inventory.length = g.mainPlayer.inventory.length
  keeps : KeepsUnder ItemCell P → P g.process → P g'.process

variable (P) in
/-- The same enemies are listed, and what writes into the cells keep is kept. -/
def CellsOnly (g g' : GameState B F) : Prop :=
  g'.mainPlayer.enemies.map Prod.fst = g.mainPlayer.enemies.map Prod.fst ∧
    (KeepsUnder (MessageCell g) P → P g.process → P g'.process)

omit [ByteLike B] [FixedWidth B F 4] in
theorem handlerRelation_enemiesOnly :
    HandlerRelation (EnemiesOnly P : GameState B F → GameState B F → Prop) where
  refl := fun _ => ⟨rfl, rfl, fun _ hP => hP⟩
  trans := by
    rintro g g' g'' ⟨henemies, hinventory, hkeeps⟩ ⟨henemies', hinventory', hkeeps'⟩
    refine ⟨henemies'.trans henemies, hinventory'.trans hinventory, ?_⟩
    intro h hP
    refine hkeeps' ?_ (hkeeps h hP)
    intro p address bytes haddress
    exact h p address bytes ((enemyCell_congr henemies address).1 haddress)

omit [ByteLike B] in
theorem hasEnemies_enemiesOnly :
    HasEnemies (EnemiesOnly P : GameState B F → GameState B F → Prop) := by
  intro g k e health hget
  refine ⟨enemies_set hget health, rfl, ?_⟩
  intro h hP
  exact h.writeData ⟨e.1, List.mem_map_of_mem (List.mem_of_getElem? hget), rfl⟩ health hP

omit [ByteLike B] [FixedWidth B F 4] in
theorem handlerRelation_itemsOnly :
    HandlerRelation (ItemsOnly P : GameState B F → GameState B F → Prop) where
  refl := fun _ => ⟨rfl, rfl, fun _ hP => hP⟩
  trans := by
    rintro g g' g'' ⟨henemies, hinventory, hkeeps⟩ ⟨henemies', hinventory', hkeeps'⟩
    exact ⟨henemies'.trans henemies, hinventory'.trans hinventory,
      fun h hP => hkeeps' h (hkeeps h hP)⟩

omit [ByteLike B] in
theorem hasItems_itemsOnly : HasItems (ItemsOnly P : GameState B F → GameState B F → Prop) := by
  intro g item entry count hget
  refine ⟨rfl, List.length_set, ?_⟩
  intro h hP
  exact h.writeData ⟨item, rfl⟩ count hP

omit [ByteLike B] in
/-- All changes of a message are of this kind. -/
theorem changeRelation_cells :
    ChangeRelation (CellsOnly P : GameState B F → GameState B F → Prop) where
  refl := fun _ => ⟨rfl, fun _ hP => hP⟩
  trans := by
    rintro g g' g'' ⟨henemies, hkeeps⟩ ⟨henemies', hkeeps'⟩
    refine ⟨henemies'.trans henemies, fun h hP => hkeeps' ?_ (hkeeps h hP)⟩
    intro p address bytes haddress
    exact h p address bytes (haddress.imp_right (enemyCell_congr henemies address).1)
  slot := fun _ _ _ _ => ⟨rfl, fun _ hP => hP⟩
  level := fun _ _ => ⟨rfl, fun _ hP => hP⟩
  enemy := by
    intro g k e health hget
    refine ⟨enemies_set hget health, fun h hP => ?_⟩
    exact h.writeData (.inr ⟨e.1, List.mem_map_of_mem (List.mem_of_getElem? hget), rfl⟩) health hP
  item := fun g item entry count hget =>
    ⟨rfl, fun h hP => h.writeData (.inl ⟨item, rfl⟩) count hP⟩

section blocks

variable [Zero F] [Add F] [LT F] [DecidableLT F] {states : LabelStates} {message : List B}
  {g : GameState B F}

/-- A message with one block of enemies is of the first kind, whether it is handled or not. -/
theorem enemiesOnly_of_block
    (h : SingleBlock F states g.mainPlayer.inventory.length .enemiesHealth message)
    (senderID : UInt8) :
    EnemiesOnly P g (gameAfter (readGameMessage states senderID ⟨message, g⟩)) := by
  rcases h.gameAfter senderID with hkept | ⟨rest, hhandled⟩
  · rw [hkept]
    exact handlerRelation_enemiesOnly.refl g
  · rw [hhandled]
    exact within_readProcessEnemiesHealth handlerRelation_enemiesOnly hasEnemies_enemiesOnly
      ⟨rest, g⟩

/-- One with a block of items is of the second kind. -/
theorem itemsOnly_of_block
    (h : SingleBlock F states g.mainPlayer.inventory.length .inventory message)
    (senderID : UInt8) :
    ItemsOnly P g (gameAfter (readGameMessage states senderID ⟨message, g⟩)) := by
  rcases h.gameAfter senderID with hkept | ⟨rest, hhandled⟩
  · rw [hkept]
    exact handlerRelation_itemsOnly.refl g
  · rw [hhandled]
    exact within_readProcessInventory handlerRelation_itemsOnly hasItems_itemsOnly ⟨rest, g⟩

end blocks

end figures

namespace Multiplayer

/-! ## The update thread -/

variable [FixedWidth UInt8 F 4]

/-- Where the update thread of the program writes to. -/
inductive Program.Cell (h : Program F) (address : UInt32) : Prop where
  | figure (i : Fin 7) (hcell : (h.npcs i).HasCell F address)
  | message (hcell : MessageCell h.game address)

omit [FixedWidth UInt8 F 4] in
/-- The cells go by the figures and by the enemies that are listed. -/
theorem cell_congr {h h' : Program F} (hnpcs : h'.npcs = h.npcs)
    (henemies : h'.game.mainPlayer.enemies.map Prod.fst = h.game.mainPlayer.enemies.map Prod.fst)
    (address : UInt32) : h'.Cell address ↔ h.Cell address := by
  have hmessage : MessageCell h'.game address ↔ MessageCell h.game address := by
    unfold MessageCell
    rw [enemyCell_congr henemies]
  constructor
  · rintro (⟨i, hcell⟩ | hcell)
    · exact .figure i (hnpcs ▸ hcell)
    · exact .message (hmessage.1 hcell)
  · rintro (⟨i, hcell⟩ | hcell)
    · exact .figure i (hnpcs ▸ hcell)
    · exact .message (hmessage.2 hcell)

variable [Zero F] [Add F] [LT F] [DecidableLT F] {P : HobbitProcessAnalyzer UInt8 → Prop}

/-- A message that is handled, or throws, writes into the cells only. -/
theorem readGameMessage_keeps {h : Program F} (hP : KeepsUnder h.Cell P)
    (hold : P h.game.process) (senderID : UInt8) (message : List UInt8) (point : UpdatePoint) :
    P (h.readGameMessage senderID message point).game.process ∧
      ∀ address, (h.readGameMessage senderID message point).Cell address ↔ h.Cell address := by
  have hcells := readGameMessage_within (changeRelation_cells (P := P)) h.messageLabelStates
    senderID message h.game
  rw [← Program.game_readGameMessage h senderID message point] at hcells
  refine ⟨hcells.2 (fun p address bytes haddress => hP p address bytes (.message haddress)) hold,
    cell_congr (Program.npcs_readGameMessage h senderID message point) hcells.1⟩

variable [Sub F] [BEq F]

/-- So does every step of the update thread. -/
theorem update_keeps {c c' : Client} {h h' : Program F} (hP : KeepsUnder h.Cell P)
    (hold : P h.game.process) (hupdate : h.update c = some (c', h')) :
    P h'.game.process ∧ ∀ address, h'.Cell address ↔ h.Cell address := by
  have hsame : ∀ {h' : Program F}, h'.game = h.game → h'.npcs = h.npcs →
      P h'.game.process ∧ ∀ address, h'.Cell address ↔ h.Cell address :=
    fun hgame hnpcs => ⟨hgame ▸ hold, cell_congr hnpcs (by rw [hgame])⟩
  cases Program.update_cases hupdate with
  | ended | turn | text | noText | spin | copy | handled | clear | written =>
      exact hsame rfl rfl
  | event hthread hsize hpos => exact readGameMessage_keeps hP hold _ _ _
  | throws hthread hsize hthrown => exact readGameMessage_keeps hP hold _ _ _
  | handle senderID msg copy hthread => exact readGameMessage_keeps hP hold _ _ _
  | player i hi hthread =>
      refine ⟨processPlayer_keeps (fun p address bytes hcell => ?_) c.clientID _ hold,
        cell_congr rfl rfl⟩
      exact hP p address bytes (.figure ⟨i, hi⟩ hcell)
  | write i hthread =>
      exact ⟨hold, cell_congr rfl (enemies_write_fst h.game.process h.ptrs h.game.mainPlayer)⟩

/-! ## Whole runs -/

omit [FixedWidth UInt8 F 4] [Zero F] [Add F] [LT F] [DecidableLT F] [Sub F] [BEq F] in
/-- The game of client `n` does not go on by itself, and it enters no level. -/
def Action.LeavesGame (n : ℕ) : Action F → Prop
  | .play m _ | .enterNewLevel m => m ≠ n
  | _ => True

instance (n : ℕ) (a : Action F) : Decidable (a.LeavesGame n) :=
  match a with
  | .play m _ => inferInstanceAs (Decidable (m ≠ n))
  | .enterNewLevel m => inferInstanceAs (Decidable (m ≠ n))
  | .net _ | .join _ _ _ _ | .rejoin _ _ _ | .start _ | .exitLevel _ | .setLabel _ _ _ |
    .update _ => instDecidableTrue

/-- A step of any party keeps the cells of a program, and what is kept by writes into
them. -/
theorem step_keeps {w w' : World F} {a : Action F} {n : ℕ} (hn : n < w.net.accepts)
    (h : World.step w a w') (hleaves : a.LeavesGame n) (hP : KeepsUnder (w.program n).Cell P)
    (hold : P (w.program n).game.process) : n < w'.net.accepts ∧
      P (w'.program n).game.process ∧
        ∀ address, (w'.program n).Cell address ↔ (w.program n).Cell address := by
  have hsame : ∀ {h : Program F}, h.game.process = (w.program n).game.process →
      h.game.mainPlayer = (w.program n).game.mainPlayer → h.npcs = (w.program n).npcs →
      P h.game.process ∧ ∀ address, h.Cell address ↔ (w.program n).Cell address :=
    fun hprocess hplayer hnpcs => ⟨hprocess ▸ hold, cell_congr hnpcs (by rw [hplayer])⟩
  have hother : ∀ {m : ℕ} {h : Program F}, m ≠ n →
      P (Function.update w.program m h n).game.process ∧
        ∀ address, (Function.update w.program m h n).Cell address ↔
          (w.program n).Cell address := by
    intro m h hm
    rw [Function.update_of_ne hm.symm]
    exact hsame rfl rfl rfl
  have hown : ∀ {m : ℕ} {h : Program F}, (m = n →
        P h.game.process ∧ ∀ address, h.Cell address ↔ (w.program n).Cell address) →
      P (Function.update w.program m h n).game.process ∧
        ∀ address, (Function.update w.program m h n).Cell address ↔
          (w.program n).Cell address := by
    intro m h hh
    by_cases hm : m = n
    · subst hm
      rw [Function.update_self]
      exact hh rfl
    · exact hother hm
  cases World.step_cases h with
  | net b net hb hsend haccept =>
      refine ⟨hn.trans_le hb.accepts_le, ?_⟩
      rcases World.heard_cases b w n with hheard | ⟨clientIDs, hheard⟩
      · dsimp only
        rw [hheard]
        exact hsame rfl rfl rfl
      · dsimp only
        rw [hheard]
        exact hsame rfl rfl rfl
  | join ipAddress sinPort game guids net hb =>
      exact ⟨hn.trans_le hb.accepts_le, hother (Nat.ne_of_gt hn)⟩
  | rejoin ipAddress sinPort prev net hb =>
      refine ⟨hn.trans_le hb.accepts_le, ?_⟩
      dsimp only
      rw [Function.update_of_ne (Nat.ne_of_lt hn)]
      apply hown
      rintro rfl
      exact hsame rfl rfl rfl
  | start m hm | exitLevel m hm | setLabel m label enable hm =>
      refine ⟨hn, hown ?_⟩
      rintro rfl
      exact hsame rfl rfl rfl
  | play m process hm | enterNewLevel m hm => exact ⟨hn, hother hleaves⟩
  | send m msg messages net hm hthread hb =>
      refine ⟨hn.trans_le hb.accepts_le, hown ?_⟩
      rintro rfl
      exact hsame rfl rfl rfl
  | pass m msg messages hm =>
      refine ⟨hn, hown ?_⟩
      rintro rfl
      exact hsame rfl rfl rfl
  | update m c program hm hupdate =>
      refine ⟨hn, hown ?_⟩
      rintro rfl
      exact update_keeps hP hold hupdate

set_option maxRecDepth 4000 in
theorem isSome_ownTurn : (exec (guardFn World.next fun _ a => a.LeavesGame 1) afterMeet
    (List.replicate 13 (.update 1))).isSome := by
  decide

end Multiplayer

end HobbitSynchrony
