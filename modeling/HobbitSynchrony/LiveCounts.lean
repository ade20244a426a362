import HobbitSynchrony.InventorySync

/-! # Remote changes and live counts

A pair of an inventory message is added to the recorded count of its item, and
the result goes into the game's memory. So the count in memory from before does
not enter into it, though it may have moved on since it was recorded.

* `stepFn`: `readPtrs`, changes of the game, reports, and the pairs of messages;
* `run_message`: a message is handled as its pairs, one after the other;
* `updatesLive_iff`: when a pair is applied to the count in memory;
* `stale_count_applied`: a pick-up that a pair takes back.
-/

namespace HobbitSynchrony

open AddressSpace Transition

variable {B F : Type} [ByteLike B] [FixedWidth B F 4] [AddCommGroup F] [LinearOrder F]

namespace LiveCounts

/-- What happens to a client with a game: `readPtrs`, the game goes on, a report
of the inventory, or a pair of a received message. -/
inductive Action (B F : Type) where
  | readPtrs
  | play (process : HobbitProcessAnalyzer B)
  | write
  | pair (item : UInt8) (delta : F)

/-- A step; the game stays open, and a pair that throws is none. -/
def stepFn (g : GameState B F) : Action B F → Option (GameState B F)
  | .readPtrs => some { g with mainPlayer := MainPlayer.readPtrs g.process g.mainPlayer }
  | .play process => if process.isProcessSet then some { g with process := process } else none
  | .write => some (sendInventory g).2
  | .pair item delta =>
    match applyInventory item delta ⟨[], g⟩ with
    | .ok _ s => some s.game
    | .error _ _ => none

def step : GameState B F → Action B F → GameState B F → Prop := ofFn stepFn

/-- A pair is processed, which sets the count of its item in memory to the one
just before plus the change, at least 0, and changes no other count. -/
def UpdatesLive (g : GameState B F) (item : UInt8) (delta : F) : Prop :=
  ∃ g' : GameState B F, (∀ q, applyInventory item delta ⟨q, g⟩ = .ok () ⟨q, g'⟩) ∧
    currentCount g'.process item = max 0 (currentCount g.process item + delta) ∧
    ∀ j ≠ item, (currentCount g'.process j : F) = currentCount g.process j

/-! ## Reachable clients -/

omit [LinearOrder F] in
theorem inventoryClient_fresh {process : HobbitProcessAnalyzer B} (h : process.isProcessSet) :
    InventoryClient (GameState.fresh process : GameState B F) := by
  refine ⟨h, ?_⟩
  simp [GameState.fresh, MainPlayer.readPtrs]

theorem step_pair {g g' : GameState B F} {item : UInt8} {delta : F}
    (h : step g (.pair item delta) g') : g' = applyItem g (item, delta) := by
  have hstep : (match applyInventory item delta ⟨[], g⟩ with
    | .ok _ s => some s.game
    | .error _ _ => none) = some g' := h
  by_cases hitem : (item, delta).1.toNat < g.mainPlayer.inventory.length
  · have happly := applyInventory_eq hitem []
    dsimp only at happly
    rw [happly] at hstep
    cases hstep
    exact rfl
  · have hnone := List.getElem?_eq_none (Nat.le_of_not_lt hitem)
    rw [applyInventory] at hstep
    dsimp only at hstep
    rw [hnone] at hstep
    cases hstep

/-- Every step keeps the game open and the recorded items in place. -/
theorem inventoryClient_step {g g' : GameState B F} {a : Action B F} (hg : InventoryClient g)
    (h : step g a g') : InventoryClient g' := by
  cases a with
  | readPtrs =>
      cases h
      refine ⟨hg.isProcessSet, ?_⟩
      have hlength := hg.inventory
      simp only [MainPlayer.readPtrs, List.length_append]
      omega
  | play process =>
      have hstep : (if process.isProcessSet then some { g with process := process } else none) =
          some g' := h
      rw [Option.ite_none_right_eq_some] at hstep
      cases hstep.2
      exact ⟨hstep.1, hg.inventory⟩
  | write =>
      cases h
      exact (sendInventory_client hg (by decide : Tracked 0)).1
  | pair item delta =>
      rw [step_pair h]
      refine ⟨?_, ?_⟩
      · rw [applyItem, HobbitProcessAnalyzer.isProcessSet_writeData]
        exact hg.isProcessSet
      · rw [length_inventory_applyItem]
        exact hg.inventory

theorem inventoryClient_run {process : HobbitProcessAnalyzer B} (hset : process.isProcessSet)
    {as : List (Action B F)} {g : GameState B F} (h : Run step (GameState.fresh process) as g) :
    InventoryClient g :=
  h.invariant (fun _ _ _ hstep hg => inventoryClient_step hg hstep) (inventoryClient_fresh hset)

/-- The message with these pairs is handled as the pairs, one after the other. -/
theorem run_message {entries : List (UInt8 × F)} {g : GameState B F}
    (hlt : entries.length < 2 ^ 32) (h : ItemsBelow g.mainPlayer.inventory.length entries) :
    ∃ g', readProcessInventory
        ⟨FixedWidth.encode (UInt32.ofNat entries.length) ++ entries.flatMap entryBytes, g⟩ =
          .ok () ⟨[], g'⟩ ∧
      Run step g (entries.map fun entry => .pair entry.1 entry.2) g' := by
  refine ⟨applyItems entries g, readProcessInventory_flatMap entries hlt h, ?_⟩
  clear hlt
  induction entries generalizing g with
  | nil => exact Run.nil
  | cons entry entries ih =>
      have hfirst : step g (.pair entry.1 entry.2) (applyItem g entry) := by
        unfold step ofFn stepFn
        dsimp only
        rw [applyInventory_eq (h entry List.mem_cons_self)]
      have hrest : ItemsBelow (applyItem g entry).mainPlayer.inventory.length entries := by
        rw [length_inventory_applyItem]
        exact fun e he => h e (List.mem_cons_of_mem entry he)
      exact (Run.single hfirst).append (ih hrest)

/-! ## Pairs that are applied to the live count -/

omit [ByteLike B] [FixedWidth B F 4] in
theorem changedCount_eq_max (count change : F) :
    changedCount count change = max 0 (count + change) := by
  unfold changedCount
  split
  next hneg => exact (max_eq_left hneg.le).symm
  next hpos => exact (max_eq_right (not_lt.1 hpos)).symm

omit [ByteLike B] [FixedWidth B F 4] in
/-- Two counts give the same with a change, at least 0, if they are the same or
both fall to 0. -/
theorem max_add_eq_max_add_iff (recorded live delta : F) :
    max 0 (recorded + delta) = max 0 (live + delta) ↔
      recorded = live ∨ recorded + delta ≤ 0 ∧ live + delta ≤ 0 := by
  constructor
  · intro heq
    by_cases hrecorded : recorded + delta ≤ 0
    · rw [max_eq_left hrecorded] at heq
      exact .inr ⟨hrecorded, max_eq_left_iff.1 heq.symm⟩
    · have hpos := not_le.1 hrecorded
      rw [max_eq_right hpos.le] at heq
      have hlive : ¬ live + delta ≤ 0 := by
        intro hle
        rw [max_eq_left hle] at heq
        exact hrecorded heq.le
      rw [max_eq_right (not_le.1 hlive).le] at heq
      exact .inl (add_right_cancel heq)
  · rintro (rfl | ⟨hrecorded, hlive⟩)
    · exact rfl
    · rw [max_eq_left hrecorded, max_eq_left hlive]

/-- A pair is applied to the count in memory exactly if that is the count that is
recorded, or if both fall to 0. -/
theorem updatesLive_iff {process : HobbitProcessAnalyzer B} (hset : process.isProcessSet)
    {as : List (Action B F)} {g : GameState B F} (h : Run step (GameState.fresh process) as g)
    {item : UInt8} (hitem : item < 56) (delta : F) :
    UpdatesLive g item delta ↔
      recordedCount item g = currentCount g.process item ∨
        recordedCount item g + delta ≤ 0 ∧ currentCount g.process item + delta ≤ 0 := by
  have hclient := inventoryClient_run hset h
  have hplace : (item, delta).1.toNat < g.mainPlayer.inventory.length :=
    (UInt8.lt_iff_toNat_lt.1 hitem).trans_le hclient.inventory
  have happly := applyInventory_eq hplace
  have hcount (j : UInt8) : currentCount (applyItem g (item, delta)).process j =
      if j = item then max 0 (recordedCount item g + delta) else currentCount g.process j := by
    rw [applyItem, currentCount_write hclient.isProcessSet, changedCount_eq_max]
    exact rfl
  rw [← max_add_eq_max_add_iff]
  constructor
  · rintro ⟨g', hrun, hlive, -⟩
    have hsame := (hrun []).symm.trans (happly [])
    cases hsame
    rw [hcount, if_pos rfl] at hlive
    exact hlive
  · intro heq
    refine ⟨applyItem g (item, delta), happly, ?_, ?_⟩
    · rw [hcount, if_pos rfl, heq]
    · intro j hj
      rw [hcount, if_neg hj]

/-- The shelf of item 0 after two more were put onto it. -/
def fullerShelf : HobbitProcessAnalyzer (Cell ℤ) := shelf.writeData (itemAddress 0) (7 : ℤ)

/-- A client whose game has put them there. -/
def playedClient : GameState (Cell ℤ) ℤ := { shelfClient with process := fullerShelf }

theorem step_playedClient : step shelfClient (.play fullerShelf) playedClient := rfl

/-- Two more are reported, and a third one comes from somebody else. -/
theorem updatesLive_reported : ∃ g : GameState (Cell ℤ) ℤ,
    Run step shelfClient [.play fullerShelf, .write] g ∧ UpdatesLive g 0 1 := by
  have hfresh : InventoryClient shelfClient := inventoryClient_fresh rfl
  have hclient := inventoryClient_step hfresh step_playedClient
  have hwrite : step playedClient .write (sendInventory playedClient).2 := rfl
  have hrun := (Run.single step_playedClient).snoc hwrite
  rcases sendInventory_client hclient (by decide : Tracked 0) with ⟨-, hprocess, hrecorded⟩
  refine ⟨_, hrun, (updatesLive_iff rfl hrun (by decide) 1).2 (.inl ?_)⟩
  rw [hrecorded, hprocess]

/-- Two more are not reported, and the one from somebody else takes them back. -/
theorem stale_count_applied : ¬ ∀ as (g : GameState (Cell ℤ) ℤ), Run step shelfClient as g →
    ∀ item < 56, ∀ delta, UpdatesLive g item delta := by
  intro h
  have hset : shelf.isProcessSet = true := rfl
  have hplace : ((0 : UInt8), (1 : ℤ)).1.toNat < playedClient.mainPlayer.inventory.length := by
    decide
  have hlive : currentCount playedClient.process 0 = (7 : ℤ) := currentCount_write hset 0 7 0
  have hrecorded : MainPlayer.countAt playedClient.mainPlayer.inventory 0 = (5 : ℤ) :=
    (shelf_counts 0 (by decide)).2
  rcases h _ _ (Run.single step_playedClient) 0 (by decide) 1 with ⟨g', hrun, hupdated, -⟩
  have hsame := (hrun []).symm.trans (applyInventory_eq hplace [])
  cases hsame
  rw [applyItem, hlive, hrecorded, currentCount_write rfl, if_pos rfl] at hupdated
  revert hupdated
  decide

end LiveCounts

end HobbitSynchrony
