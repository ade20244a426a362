import HobbitSynchrony.Lib.Run
import HobbitSynchrony.InventoryEvent
import HobbitSynchrony.ObjectSearch
import HobbitSynchrony.Snapshot

/-! # Entering a level

`HobbitClient::onEnterNewLevel` calls `MainPlayer::readPtrs`, which lists the
enemies of the level and records the counts of the items.

* `selectedObjs`: the objects that should be listed as enemies;
* `selection_exact_iff`: they are, if Bilbo is not one of those that look like
  an enemy: the test for his GUID compares 32 bits of it and only logs;
* `LevelClient`, `step`: level entries, reports and messages in any order;
* `level_entry_resets_iff`: only the first entry leaves 56 recorded items, the
  inventory is not cleared.
-/

namespace HobbitSynchrony

open Transition HobbitProcessAnalyzer

variable {B F : Type} [ByteLike B]

/-! ## The enemies of a level -/

/-- Bilbo's GUID. -/
def bilboGUID : UInt64 := 0xABCABCABCABCABC0

/-- The object has the two patterns of an enemy. -/
def HasEnemyPattern (process : HobbitProcessAnalyzer B) (obj : UInt32) : Prop :=
  process.readData UInt64 (obj + 0x1A4) = 0x0000000200000002 ∧
    process.readData UInt32 (obj + 0x10) = 0x04004232

instance (process : HobbitProcessAnalyzer B) (obj : UInt32) :
    Decidable (HasEnemyPattern process obj) :=
  inferInstanceAs (Decidable (_ ∧ _))

/-- The objects that should be listed: those with the patterns but Bilbo. -/
def selectedObjs (process : HobbitProcessAnalyzer B) : List UInt32 :=
  process.stackObjs.filter fun obj => HasEnemyPattern process obj ∧ process.objGUID obj ≠ bilboGUID

/-- The objects in the slots that the loops do not visit. -/
def unvisitedObjs (process : HobbitProcessAnalyzer B) : List UInt32 :=
  ((process.stackSlots.drop process.visitedSlots).map
    fun slot => process.objAddrs (UInt32.ofNat slot)).filter fun obj => obj ≠ 0

/-- The objects of the stack are those visited and the others. -/
theorem stackObjs_eq_append (process : HobbitProcessAnalyzer B) :
    process.stackObjs = process.slotObjs ++ unvisitedObjs process := by
  have hcomp : process.objAddrs ∘ UInt32.ofNat =
      fun slot => process.objAddrs (UInt32.ofNat slot) := rfl
  unfold stackObjs slotObjs unvisitedObjs
  rw [slots_eq_take, List.map_map, hcomp, ← List.filter_append, ← List.map_append,
    List.take_append_drop]

/-- The first part of a list, filtered by `p`, is the whole list filtered by `p` and
`q` exactly if `q` takes nothing away there and leaves nothing of the rest. -/
theorem filter_eq_filter_append_iff {α : Type} (l l' : List α) (p q : α → Prop) [DecidablePred p]
    [DecidablePred q] :
    (l.filter fun a => p a) = ((l ++ l').filter fun a => p a ∧ q a) ↔
      (∀ a ∈ l, p a → q a) ∧ ∀ a ∈ l', p a → ¬ q a := by
  have hfirst (h : ∀ a ∈ l, p a → q a) :
      (l.filter fun a => p a ∧ q a) = l.filter fun a => p a := by
    apply List.filter_congr
    intro a ha
    rw [decide_eq_decide]
    exact ⟨And.left, fun hp => ⟨hp, h a ha hp⟩⟩
  constructor
  · intro heq
    have hq : ∀ a ∈ l, p a → q a := by
      intro a ha hp
      have hmem : a ∈ l.filter fun a => p a := List.mem_filter.2 ⟨ha, decide_eq_true hp⟩
      rw [heq] at hmem
      exact (of_decide_eq_true (List.mem_filter.1 hmem).2).2
    refine ⟨hq, ?_⟩
    rw [List.filter_append, hfirst hq, List.self_eq_append_right, List.filter_eq_nil_iff] at heq
    intro a ha hp hqa
    exact heq a ha (decide_eq_true ⟨hp, hqa⟩)
  · rintro ⟨hq, hrest⟩
    rw [List.filter_append, hfirst hq, List.self_eq_append_right, List.filter_eq_nil_iff]
    intro a ha hboth
    have hpq := of_decide_eq_true hboth
    exact hrest a ha hpq.1 hpq.2

namespace MainPlayer

section selection

variable [FixedWidth B F 4] [Zero F]

/-- The listed enemies are the visited objects with the patterns. -/
theorem enemies_readPtrs (process : HobbitProcessAnalyzer B) (player : MainPlayer F) :
    (readPtrs process player).enemies =
      (process.slotObjs.filter fun obj => HasEnemyPattern process obj).map fun obj =>
        (obj, process.readData F (healthAddress obj)) := by
  unfold readPtrs
  dsimp only
  rw [findAllGameObjByPattern_eq, List.filter_filter]
  congr 2
  funext obj
  unfold isEnemy HasEnemyPattern
  have hshift : obj + (0x184 + 0x8 * 0x4) = obj + 0x1A4 := rfl
  rw [hshift]
  by_cases htemplate : process.readData UInt64 (obj + 0x1A4) = 0x0000000200000002
  · simp [htemplate, eq_comm, beq_eq_decide]
  · simp [htemplate]

/-- The enemies are the objects that should be listed exactly if none of the
visited objects with the patterns is Bilbo, and if the loops do not leave out
one that should be listed. -/
theorem selection_exact_iff (process : HobbitProcessAnalyzer B) (player : MainPlayer F) :
    (readPtrs process player).enemies.map Prod.fst = selectedObjs process ↔
      (∀ obj ∈ process.slotObjs, HasEnemyPattern process obj → process.objGUID obj ≠ bilboGUID) ∧
        ∀ obj ∈ unvisitedObjs process,
          HasEnemyPattern process obj → process.objGUID obj = bilboGUID := by
  have hlisted : (readPtrs process player).enemies.map Prod.fst =
      process.slotObjs.filter fun obj => HasEnemyPattern process obj := by
    rw [enemies_readPtrs, List.map_map]
    exact List.map_id _
  rw [hlisted, selectedObjs, stackObjs_eq_append, filter_eq_filter_append_iff]
  simp only [not_not]

end selection

/-- A level whose only object has the patterns of an enemy and Bilbo's GUID. -/
def bilboLevel : HobbitProcessAnalyzer UInt8 where
  isProcessSet := true
  memory := fun address =>
    (([(0x1001, 0x20), (0x2008, 0xC0), (0x2009, 0xAB), (0x200A, 0xBC), (0x200B, 0xCA),
      (0x200C, 0xAB), (0x200D, 0xBC), (0x200E, 0xCA), (0x200F, 0xAB), (0x2010, 0x32),
      (0x2011, 0x42), (0x2013, 0x04), (0x21A4, 2), (0x21A8, 2)] : List (UInt32 × UInt8)).lookup
        address).getD 0
  objectStackAddress := 0x1000
  objectStackSize := 1

/-- Bilbo is listed as an enemy. -/
theorem bilbo_listed : ¬ ∀ (process : HobbitProcessAnalyzer UInt8) (player : MainPlayer UInt32),
    (readPtrs process player).enemies.map Prod.fst = selectedObjs process := by
  intro h
  have hbilbo := h bilboLevel { level := 0, enemies := [], inventory := [] }
  have hlisted : ((readPtrs bilboLevel
      ({ level := 0, enemies := [], inventory := [] } : MainPlayer UInt32)).enemies.map Prod.fst) =
        [0x2000] := by
    rw [enemies_readPtrs]
    decide
  rw [hlisted] at hbilbo
  revert hbilbo
  decide

end MainPlayer

/-! ## Level after level -/

/-- A `HobbitClient`, as far as levels go: the game state, what is known of Bilbo,
and whether messages are processed. -/
structure LevelClient (B F : Type) where
  game : GameState B F
  ptrs : MainPlayer.BilboPtrs
  processMessages : Bool

namespace LevelClient

/-- What happens to a client: the game goes on, a level is entered or left, the
others are told what has changed, or a message is read. -/
inductive Action (B : Type) where
  | play (process : HobbitProcessAnalyzer B)
  | enterNewLevel
  | exitLevel
  | write
  | read (states : LabelStates) (senderID : UInt8) (gameData : List B)

/-- The action is a level entry. -/
def Action.isEntry : Action B → Bool
  | enterNewLevel => true
  | _ => false

/-- A client that has entered no level yet. -/
def new (process : HobbitProcessAnalyzer B) (level : UInt32)
    (connectedPlayers : Fin 7 → ConnectedPlayer F) : LevelClient B F where
  game :=
    { process := process, mainPlayer := { level := level, enemies := [], inventory := [] }
      connectedPlayers := connectedPlayers }
  ptrs := { bilboPosXPTR := 0, bilboAnimPTR := 0 }
  processMessages := false

variable [FixedWidth B F 4] [Zero F] [Add F] [Sub F] [BEq F] [LT F] [DecidableLT F]

/-- A step. `update` reads and writes only while messages are processed, and a
message that throws ends the program. -/
def stepFn (s : LevelClient B F) : Action B → Option (LevelClient B F)
  | .play process => some { s with game := { s.game with process := process } }
  | .enterNewLevel => some
      { game := { s.game with
          mainPlayer := MainPlayer.readPtrs s.game.process s.game.mainPlayer }
        ptrs := MainPlayer.readBilboPtrs s.game.process
        processMessages := true }
  | .exitLevel => some { s with processMessages := false }
  | .write =>
    if s.processMessages then some { s with game := { s.game with
      mainPlayer := (MainPlayer.write s.game.process s.ptrs s.game.mainPlayer).2 } }
    else none
  | .read states senderID gameData =>
    if s.processMessages then
      match readGameMessage states senderID ⟨gameData, s.game⟩ with
      | .ok _ h => some { s with game := h.game }
      | .error _ _ => none
    else none

def step : LevelClient B F → Action B → LevelClient B F → Prop := ofFn stepFn

/-- The inventory has the 56 items with their counts in memory, and the enemies
are the objects with the patterns, with their healths in memory. -/
structure Reset (g : GameState B F) : Prop where
  inventory : g.mainPlayer.inventory = (List.range 56).map fun item =>
    (UInt8.ofNat item, currentCount g.process (UInt8.ofNat item))
  enemies : g.mainPlayer.enemies =
    (g.process.slotObjs.filter fun obj => HasEnemyPattern g.process obj).map fun obj =>
      (obj, g.process.readData F (healthAddress obj))

omit [Add F] in
/-- Reports keep the number of recorded items. -/
theorem length_inventory_write (process : HobbitProcessAnalyzer B) (ptrs : MainPlayer.BilboPtrs)
    (player : MainPlayer F) :
    (MainPlayer.write process ptrs player).2.inventory.length = player.inventory.length := by
  have henemies : (MainPlayer.writeEnemiesEvent process player).2.inventory = player.inventory := by
    unfold MainPlayer.writeEnemiesEvent
    dsimp only
    rw [apply_ite Prod.snd, ite_self]
  unfold MainPlayer.write
  dsimp only
  rw [MainPlayer.writeInventoryEvent_snd]
  dsimp only
  rw [MainPlayer.length_storedItems, henemies]

/-- Every entry adds 56 items to the inventory, nothing else changes their number. -/
theorem length_inventory_step {s s' : LevelClient B F} {a : Action B} (h : step s a s') :
    s'.game.mainPlayer.inventory.length =
      s.game.mainPlayer.inventory.length + if a.isEntry then 56 else 0 := by
  cases a with
  | play process =>
      cases h
      exact rfl
  | enterNewLevel =>
      cases h
      simp [MainPlayer.readPtrs, Action.isEntry]
  | exitLevel =>
      cases h
      exact rfl
  | write =>
      have hstep : (if s.processMessages then some _ else none) = some s' := h
      rw [Option.ite_none_right_eq_some] at hstep
      cases hstep.2
      exact length_inventory_write _ s.ptrs _
  | read states senderID gameData =>
      have hstep : (if s.processMessages then
          (match readGameMessage states senderID ⟨gameData, s.game⟩ with
          | .ok _ h => some { s with game := h.game }
          | .error _ _ => none)
        else none) = some s' := h
      rw [Option.ite_none_right_eq_some] at hstep
      cases hread : readGameMessage states senderID ⟨gameData, s.game⟩ with
      | ok a t =>
          rw [hread] at hstep
          cases hstep.2
          exact length_inventory_readGameMessage hread
      | error e t =>
          rw [hread] at hstep
          cases hstep.2

theorem length_inventory_run {process : HobbitProcessAnalyzer B} {level : UInt32}
    {connectedPlayers : Fin 7 → ConnectedPlayer F} {as : List (Action B)} {s : LevelClient B F}
    (h : Run step (new process level connectedPlayers) as s) :
    s.game.mainPlayer.inventory.length = 56 * as.countP Action.isEntry := by
  induction h with
  | nil => exact rfl
  | snoc _ hs ih =>
      rw [length_inventory_step hs, ih, List.countP_append, List.countP_singleton, Nat.mul_add]
      split <;> rfl

/-- A level entry resets what is recorded exactly if it is the first one. -/
theorem level_entry_resets_iff {process : HobbitProcessAnalyzer B} {level : UInt32}
    {connectedPlayers : Fin 7 → ConnectedPlayer F} {as : List (Action B)} {s : LevelClient B F}
    (h : Run step (new process level connectedPlayers) (as ++ [.enterNewLevel]) s) :
    Reset s.game ↔ ∀ a ∈ as, a.isEntry = false := by
  rcases h.snoc_inv with ⟨t, hrun, hentry⟩
  have hlength := length_inventory_run hrun
  have hfirst : (∀ a ∈ as, a.isEntry = false) ↔ t.game.mainPlayer.inventory = [] := by
    rw [← List.length_eq_zero_iff, hlength, Nat.mul_eq_zero, or_iff_right (by norm_num),
      List.countP_eq_zero]
    simp only [Bool.not_eq_true]
  cases hentry
  rw [hfirst]
  constructor
  · intro hreset
    -- the 56 items stand behind those of the earlier levels
    have hitems := congrArg List.length hreset.inventory
    simp only [MainPlayer.readPtrs, List.length_append, List.length_map, List.length_range]
      at hitems
    exact List.length_eq_zero_iff.1 (by omega)
  · intro hnone
    refine ⟨?_, MainPlayer.enemies_readPtrs _ _⟩
    simp only [MainPlayer.readPtrs, hnone, List.nil_append]
    exact rfl

/-- The client of a game without objects. -/
def blankClient : LevelClient UInt8 UInt32 := new blankProcess 0 freshGame.connectedPlayers

/-- The first entry, after the game has gone on for a while. -/
theorem level_entry_resets_first : ∃ s,
    Run step blankClient ([.play blankProcess] ++ [.enterNewLevel]) s ∧ Reset s.game := by
  have hplay : step blankClient (.play blankProcess) blankClient := rfl
  have hrun := (Run.single hplay).snoc
    (rfl : step blankClient .enterNewLevel ((blankClient.stepFn .enterNewLevel).get rfl))
  refine ⟨_, hrun, (level_entry_resets_iff hrun).2 ?_⟩
  intro a ha
  rw [List.mem_singleton.1 ha]
  exact rfl

/-- After the second entry 112 items are recorded. -/
theorem second_entry_not_reset : ¬ ∀ as (s : LevelClient UInt8 UInt32),
    Run step blankClient (as ++ [.enterNewLevel]) s → Reset s.game := by
  intro h
  have hfirst : step blankClient .enterNewLevel ((blankClient.stepFn .enterNewLevel).get rfl) := rfl
  have hrun := (Run.single hfirst).snoc
    (rfl : step _ .enterNewLevel ((stepFn _ .enterNewLevel).get rfl))
  have hlength := length_inventory_run hrun
  have hreset := congrArg List.length (h [.enterNewLevel] _ hrun).inventory
  rw [hlength, List.length_map, List.length_range] at hreset
  revert hreset
  decide

end LevelClient

end HobbitSynchrony
