import HobbitSynchrony.Lib.EventRelay
import HobbitSynchrony.InventoryEvent

/-! # Item counts on all clients

Clients that pick up and spend items and tell each other. An event is applied
to the recorded count, and the result is put into the game's memory; so what
the game has changed since the last report is overwritten, and is never
reported.

* `inventoryPeer`, `inventoryView`: the clients, and one item's count on them;
* `inventoryView_lawful`: what a report and an event do to the item;
* `counts_converge`: the counts agree at rest, if every event finds the counts
  it names as they were recorded;
* `pick_up_lost`: an item that is lost otherwise.
-/

namespace HobbitSynchrony

open AddressSpace Transition

variable {B F : Type} [ByteLike B] [FixedWidth B F 4] [AddCommGroup F] [LinearOrder F]

/-! ## The clients -/

/-- The game changes the count of an item. -/
def pick (change : UInt8 × F) (g : GameState B F) : GameState B F :=
  { g with
    process := g.process.writeData (itemAddress change.1)
      (currentCount g.process change.1 + change.2) }

/-- `writeInventoryEvent`; an event with data in it is sent. -/
def sendInventory (g : GameState B F) : Option (List B) × GameState B F :=
  let r := MainPlayer.writeInventoryEvent g.process g.mainPlayer
  (sentPayload r.1, { g with mainPlayer := r.2 })

/-- The recorded count of an item. -/
def recordedCount (item : UInt8) (g : GameState B F) : F :=
  MainPlayer.countAt g.mainPlayer.inventory item

/-- A client, as far as the counts of its items go. -/
def inventoryPeer (B F : Type) [ByteLike B] [FixedWidth B F 4] [AddCommGroup F] [LinearOrder F] :
    EventRelay.Peer (GameState B F) (List B) (UInt8 × F) where
  change := fun change g => some (pick change g)
  write := sendInventory
  process := processInventory

/-- The count of one item, as a replicated value. -/
def inventoryView (B F : Type) [ByteLike B] [FixedWidth B F 4] [AddCommGroup F] (item : UInt8) :
    EventRelay.View (GameState B F) (List B) (UInt8 × F) F where
  value := fun g => currentCount g.process item
  shared := recordedCount item
  amount := fun change => if change.1 = item then change.2 else 0
  deltas := fun payload => deltasOf item (eventEntries UInt8 F payload)

@[simp] theorem sendInventory_fst (g : GameState B F) :
    (sendInventory g).1 = sentPayload (MainPlayer.writeInventoryEvent g.process g.mainPlayer).1 :=
  rfl

@[simp] theorem inventoryPeer_process : (inventoryPeer B F).process = processInventory := rfl

omit [LinearOrder F] in
@[simp] theorem inventoryView_deltas (item : UInt8) (payload : List B) :
    (inventoryView B F item).deltas payload = deltasOf item (eventEntries UInt8 F payload) := rfl

/-- The client has found the game and has recorded all items, as `readPtrs`
does. -/
structure InventoryClient (g : GameState B F) : Prop where
  isProcessSet : g.process.isProcessSet
  inventory : 56 ≤ g.mainPlayer.inventory.length

/-- An event that names visited items, each at most once. -/
def InventoryEvent (F : Type) [FixedWidth B F 4] (payload : List B) : Prop :=
  ∃ (label size : B) (entries : List (UInt8 × F)),
    payload = eventBlock label size entries.length (entries.flatMap entryBytes) ∧
      (entries.map Prod.fst).Sublist visitedItems

/-- No tracked count the event names goes below zero. -/
def NotBelowZero (payload : List B) (g : GameState B F) : Prop :=
  ∀ entry ∈ eventEntries UInt8 F payload, Tracked entry.1 → 0 ≤ recordedCount entry.1 g + entry.2

/-- Every tracked item the event names has the count that is recorded for it. -/
def CountsSynced (payload : List B) (g : GameState B F) : Prop :=
  ∀ entry ∈ eventEntries UInt8 F payload, Tracked entry.1 →
    recordedCount entry.1 g = currentCount g.process entry.1

instance (payload : List B) (g : GameState B F) : Decidable (NotBelowZero payload g) :=
  List.decidableBAll _ _

instance (payload : List B) (g : GameState B F) : Decidable (CountsSynced payload g) :=
  List.decidableBAll _ _

omit [FixedWidth B F 4] [ByteLike B] [AddCommGroup F] [LinearOrder F] in
/-- Every visited item has its place in the inventory. -/
theorem InventoryClient.visited_lt {g : GameState B F} (hg : InventoryClient g) :
    ∀ i ∈ visitedItems, i.toNat < g.mainPlayer.inventory.length := by
  intro i hi
  exact (lt_of_mem_visitedItems hi).trans_le hg.inventory

/-! ## A report -/

/-- A report leaves the game alone and records the counts of tracked items. -/
theorem sendInventory_client {g : GameState B F} (hg : InventoryClient g) {item : UInt8}
    (hitem : Tracked item) :
    InventoryClient (sendInventory g).2 ∧ (sendInventory g).2.process = g.process ∧
      recordedCount item (sendInventory g).2 = currentCount g.process item := by
  have hplayer := (MainPlayer.writeInventoryEvent_eq g.process g.mainPlayer).1
  rcases MainPlayer.reportedItems_tracked hitem g.process nodup_visitedItems hg.visited_lt with
    ⟨-, hcount, hlen⟩
  rw [if_pos hitem.1] at hcount
  have hafter : (sendInventory g).2 = { g with mainPlayer := { g.mainPlayer with
      inventory := MainPlayer.storedItems g.process visitedItems g.mainPlayer.inventory } } := by
    rw [sendInventory, hplayer]
  rw [hafter]
  refine ⟨⟨hg.isProcessSet, ?_⟩, rfl, hcount⟩
  exact hg.inventory.trans_eq hlen.symm

/-- The event of a report, if there is one, has the written entries. -/
theorem sendInventory_event (g : GameState B F) :
    (∀ payload ∈ (sendInventory g).1, InventoryEvent F payload) ∧
      (sendInventory g).1.toList.flatMap (fun payload => eventEntries UInt8 F payload) =
        MainPlayer.reportedItems g.process visitedItems g.mainPlayer.inventory := by
  have hmessage := (MainPlayer.writeInventoryEvent_eq g.process g.mainPlayer).2
  have hlt := (MainPlayer.length_reportedItems_le g.process g.mainPlayer.inventory).trans_lt
    (by norm_num : 33 < 256)
  have hparse := fun size => eventEntries_eventBlock
    (ByteLike.ofByte DataLabel.inventory.toByte : B) size (hlt.trans (by norm_num))
  rcases hmessage.sent hparse with ⟨hsent, hentries⟩
  rw [sendInventory_fst]
  refine ⟨?_, hentries⟩
  intro payload hpayload
  rcases hsent payload hpayload with ⟨size, hblock⟩
  exact ⟨_, size, _, hblock, MainPlayer.reportedItems_sublist _ _ _⟩

/-! ## One item -/

/-- The operations of a client do to the count of a tracked item what they
should. -/
theorem inventoryView_lawful {item : UInt8} (hitem : Tracked item) :
    EventRelay.Lawful (inventoryPeer B F) (inventoryView B F item) InventoryClient
      (InventoryEvent F) (fun _ => True)
      (fun payload g => NotBelowZero payload g ∧ CountsSynced payload g) where
  change := by
    rintro change g g' hg h
    cases h
    refine ⟨⟨?_, hg.inventory⟩, ?_, rfl⟩
    · exact (HobbitProcessAnalyzer.isProcessSet_writeData _ _ _).trans hg.isProcessSet
    · have hcount := currentCount_write hg.isProcessSet change.1
        (currentCount g.process change.1 + change.2) item
      refine hcount.trans ?_
      -- the changed item or another one
      by_cases hchange : change.1 = item
      · subst hchange
        rw [if_pos rfl]
        exact congrArg _ (if_pos rfl).symm
      · rw [if_neg fun heq => hchange heq.symm]
        refine (add_zero _).symm.trans ?_
        exact congrArg _ (if_neg hchange).symm
  write := by
    intro g hg _
    rcases sendInventory_client hg hitem with ⟨hclient, hprocess, hcount⟩
    refine ⟨hclient, ?_, hcount⟩
    exact congrArg (fun process => (currentCount process item : F)) hprocess
  event := by
    intro g hg _
    rcases sendInventory_event g with ⟨hevent, hentries⟩
    have hwritten := (MainPlayer.reportedItems_tracked hitem g.process nodup_visitedItems
      hg.visited_lt).1
    have hdeltas : (sendInventory g).1.toList.flatMap (inventoryView B F item).deltas =
        deltasOf item
          (MainPlayer.reportedItems g.process visitedItems g.mainPlayer.inventory) := by
      rw [← hentries, deltasOf_flatMap]
      rfl
    refine ⟨hevent, ?_⟩
    -- the item is in the report, or its count is the recorded one
    by_cases hsame : recordedCount item g = currentCount g.process item
    · right
      rw [if_neg fun h => h.2 hsame] at hwritten
      exact ⟨hdeltas.trans hwritten, hsame.symm⟩
    · left
      rw [if_pos ⟨hitem.1, hsame⟩] at hwritten
      exact hdeltas.trans hwritten
  process := by
    rintro payload g hg ⟨label, size, entries, rfl, hsub⟩ ⟨habove, hsync⟩
    have hlen := hsub.length_le
    rw [List.length_map] at hlen
    have hvisited : visitedItems.length < 2 ^ 32 := by decide
    have hlt : entries.length < 2 ^ 32 := hlen.trans_lt hvisited
    -- visited items have their place in the inventory, so nothing throws
    have hbelow : ItemsBelow g.mainPlayer.inventory.length entries := by
      intro entry hentry
      exact hg.visited_lt _ (hsub.subset (List.mem_map.2 ⟨entry, hentry, rfl⟩))
    have hentries := eventEntries_eventBlock label size hlt
    have hprocess : (inventoryPeer B F).process
        (eventBlock label size entries.length (entries.flatMap entryBytes)) g =
          applyItems entries g := by
      rw [inventoryPeer_process]
      exact processInventory_eventBlock label size entries hlt hbelow
    have hview : (inventoryView B F item).deltas
        (eventBlock label size entries.length (entries.flatMap entryBytes)) =
          deltasOf item entries := by
      rw [inventoryView_deltas, hentries]
    rcases applyItems_item entries hg.isProcessSet hbelow item with
      ⟨hset, hlength, hcount, hcurrent⟩
    rw [hprocess, hview]
    refine ⟨⟨hset, hg.inventory.trans_eq hlength.symm⟩, ?_⟩
    have hnodup : (entries.map Prod.fst).Nodup := nodup_visitedItems.sublist hsub
    have hdeltas : deltasOf item entries = [] ∨ ∃ change, (item, change) ∈ entries ∧
        deltasOf item entries = [change] := deltasOf_of_nodup hnodup
    rcases hdeltas with hnone | ⟨change, hmem, hone⟩
    · -- the item is not named
      rw [hnone, List.foldl_nil] at hcount
      rw [if_pos hnone] at hcurrent
      rw [hnone, List.sum_nil, add_zero, add_zero]
      exact ⟨hcurrent, hcount⟩
    · -- the item is named once, and the sum is not cut off at zero
      have hevent := hentries.symm ▸ hmem
      have hsame := hsync _ hevent hitem
      have hsum : changedCount (MainPlayer.countAt g.mainPlayer.inventory item) change =
          recordedCount item g + change := if_neg (not_lt.2 (habove _ hevent hitem))
      rw [hone, List.foldl_cons, List.foldl_nil, hsum] at hcount hcurrent
      rw [if_neg (List.cons_ne_nil _ _)] at hcurrent
      rw [hone, List.sum_singleton]
      refine ⟨?_, hcount⟩
      refine hcurrent.trans ?_
      exact congrArg (· + change) hsame

/-! ## Whole runs -/

section runs

variable {ι : Type} [DecidableEq ι]

/-- The clients at the start: the same counts of the tracked items, recorded as
they are, and no event on its way. -/
structure InventoryStart (start : UInt8 → F)
    (s : EventRelay.State ι (GameState B F) (List B)) : Prop where
  client : ∀ i, InventoryClient (s.peer i)
  inbox : ∀ i, s.inbox i = []
  count : ∀ i item, Tracked item → currentCount (s.peer i).process item = start item
  recorded : ∀ i item, Tracked item → recordedCount item (s.peer i) = start item

/-- The steps of the clients: a change of a count, a report to all others, an
event. -/
def InventoryStep (B F : Type) [ByteLike B] [FixedWidth B F 4] [AddCommGroup F] [LinearOrder F] :
    EventRelay.State ι (GameState B F) (List B) → EventRelay.Action ι (UInt8 × F) →
      EventRelay.State ι (GameState B F) (List B) → Prop :=
  ofFn (EventRelay.step (inventoryPeer B F))

/-- If every event finds the counts it names as they were recorded, and takes
none of them below zero: when no event is on its way and everything is
recorded, all clients have the start counts plus all changes. -/
theorem counts_converge [Fintype ι] {start : UInt8 → F}
    {s₀ s : EventRelay.State ι (GameState B F) (List B)}
    {as : List (EventRelay.Action ι (UInt8 × F))} (h₀ : InventoryStart start s₀)
    (hrun : Run (Guarded (InventoryStep B F) (EventRelay.Meets (fun _ => True)
      fun payload g => NotBelowZero payload g ∧ CountsSynced payload g)) s₀ as s)
    (hin : ∀ i, s.inbox i = [])
    (hrest : ∀ i item, Tracked item →
      recordedCount item (s.peer i) = currentCount (s.peer i).process item) :
    ∀ item, Tracked item → ∀ i, currentCount (s.peer i).process item =
      start item + EventRelay.changes (inventoryView B F item) as := by
  intro item hitem i
  exact EventRelay.resting_value (inventoryView_lawful hitem) h₀.client h₀.inbox
    (fun j => h₀.count j item hitem) (fun j => h₀.recorded j item hitem) hrun hin
    (fun j => hrest j item hitem) i

end runs

/-! ## A pick-up that is lost -/

/-- A game with five pieces of item 0 and nothing else. -/
def shelf : HobbitProcessAnalyzer (Cell ℤ) where
  isProcessSet := true
  memory := write (fun _ => .byte 0) (itemAddress 0) (5 : ℤ)
  objectStackAddress := 0
  objectStackSize := 0

/-- A client that has just run `readPtrs` on it. -/
def shelfClient : GameState (Cell ℤ) ℤ := GameState.fresh shelf

/-- Two such clients. -/
def shelfStart : EventRelay.State (Fin 2) (GameState (Cell ℤ) ℤ) (List (Cell ℤ)) where
  peer := fun _ => shelfClient
  inbox := fun _ => []

/-- What each of them has. -/
def shelfCount (item : UInt8) : ℤ := if item = 0 then 5 else 0

/-- Every visited item is recorded as it is. -/
theorem shelf_counts : ∀ item ∈ visitedItems, currentCount shelf item = shelfCount item ∧
    recordedCount item shelfClient = shelfCount item := by
  have hall : (visitedItems.all fun item => decide (currentCount shelf item = shelfCount item ∧
      recordedCount item shelfClient = shelfCount item)) = true := by decide
  intro item hitem
  exact of_decide_eq_true (List.all_eq_true.1 hall item hitem)

theorem shelf_start : InventoryStart shelfCount shelfStart where
  client := by
    intro i
    have hinventory : 56 ≤ shelfClient.mainPlayer.inventory.length := by decide
    exact ⟨rfl, hinventory⟩
  inbox := by
    intro i
    rfl
  count := by
    intro i item hitem
    exact (shelf_counts item hitem.1).1
  recorded := by
    intro i item hitem
    exact (shelf_counts item hitem.1).2

/-- Every visited item is recorded as it is. -/
def AllRecorded (g : GameState (Cell ℤ) ℤ) : Prop :=
  ∀ item ∈ visitedItems, recordedCount item g = currentCount g.process item

/-- No visited item is below zero. -/
def NoneNegative (g : GameState (Cell ℤ) ℤ) : Prop :=
  ∀ item ∈ visitedItems, (0 : ℤ) ≤ currentCount g.process item

instance (g : GameState (Cell ℤ) ℤ) : Decidable (AllRecorded g) := List.decidableBAll _ _

instance (g : GameState (Cell ℤ) ℤ) : Decidable (NoneNegative g) := List.decidableBAll _ _

/-- No visited item is below zero on either client, and no event takes one
there. -/
def NoneBelowZero (s : EventRelay.State (Fin 2) (GameState (Cell ℤ) ℤ) (List (Cell ℤ)))
    (a : EventRelay.Action (Fin 2) (UInt8 × ℤ)) : Prop :=
  (∀ i, NoneNegative (s.peer i)) ∧ EventRelay.Meets (fun _ => True) NotBelowZero s a

instance (s : EventRelay.State (Fin 2) (GameState (Cell ℤ) ℤ) (List (Cell ℤ)))
    (a : EventRelay.Action (Fin 2) (UInt8 × ℤ)) : Decidable (NoneBelowZero s a) :=
  inferInstanceAs (Decidable (_ ∧ _))

/-- The first client's pick-up is reported before anything else happens. -/
theorem counts_converge_one_pick : ∃ s, Run (Guarded (InventoryStep (Cell ℤ) ℤ)
      (EventRelay.Meets (fun _ => True)
        fun payload g => NotBelowZero payload g ∧ CountsSynced payload g)) shelfStart
      [.change 0 (0, 1), .write 0, .process 1] s ∧
    ∀ i, currentCount (s.peer i).process 0 = (6 : ℤ) := by
  have hend : ∃ s, Run (Guarded (InventoryStep (Cell ℤ) ℤ) (EventRelay.Meets (fun _ => True)
        fun payload g => NotBelowZero payload g ∧ CountsSynced payload g)) shelfStart
        [.change 0 (0, 1), .write 0, .process 1] s ∧
      (∀ i, s.inbox i = []) ∧ ∀ i, AllRecorded (s.peer i) :=
    ⟨_, run_of_isSome (by decide +kernel), by decide +kernel, by decide +kernel⟩
  rcases hend with ⟨s, hrun, hin, hrecorded⟩
  have hrest : ∀ i item, Tracked item →
      recordedCount item (s.peer i) = currentCount (s.peer i).process item :=
    fun i item hitem => hrecorded i item hitem.1
  exact ⟨s, hrun, counts_converge shelf_start hrun hin hrest 0 (by decide)⟩

/-- Client `i` picks one up and client `j` spends one, and the report of `j`
comes before `i` has reported. -/
def lostPickUp (i j : Fin 2) : List (EventRelay.Action (Fin 2) (UInt8 × ℤ)) :=
  [.change i (0, 1), .change j (0, -1), .write j, .process i, .write i]

/-- The first client's piece is gone, on both. -/
theorem pick_up_lost : ∃ s, Run (Guarded (InventoryStep (Cell ℤ) ℤ) NoneBelowZero) shelfStart
      (lostPickUp 0 1) s ∧
    InventoryStart shelfCount shelfStart ∧ (∀ i, s.inbox i = []) ∧ (∀ i, AllRecorded (s.peer i)) ∧
    (∀ i, NoneNegative (s.peer i)) ∧
    shelfCount 0 + EventRelay.changes (inventoryView (Cell ℤ) ℤ 0) (lostPickUp 0 1) = 5 ∧
    currentCount (s.peer 0).process 0 = (4 : ℤ) ∧
    currentCount (s.peer 1).process 0 = (4 : ℤ) :=
  ⟨_, run_of_isSome (by decide +kernel), shelf_start, by decide +kernel, by decide +kernel,
    by decide +kernel, by decide, by decide +kernel, by decide +kernel⟩

end HobbitSynchrony
