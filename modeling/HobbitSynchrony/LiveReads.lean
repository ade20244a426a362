import HobbitSynchrony.InventoryEvent
import HobbitSynchrony.Lib.Run
import Mathlib.Tactic.Abel

/-! # Reads of a running game

`writeInventoryEvent` reads the count of an item several times: to compare it, for
the rules of items 6 and 7, for the change it writes and for the count it
records. The game runs meanwhile, so each of these reads can return something else.
(One more read is only for the log.)

* `ItemReads`: what the reads in the turn of an item return;
* `writeInventoryEvent`: the function of `MainPlayer` over these reads, and
  `writeInventoryEvent_still`: in a game that stands still it is the same;
* `step`, `Conserved`: reports one after the other, and that the changes sent
  for an item add up;
* `conserved_iff`: they do as long as the change and the recorded count come
  from the same value.
-/

namespace HobbitSynchrony

open MainPlayer Transition

variable {B F : Type} [ByteLike B] [FixedWidth B F 4]

namespace LiveReads

/-! ## The loop -/

/-- What the reads in the turn of an item return, in their order. -/
structure ItemReads (F : Type) where
  /-- compared with `!=` -/
  differs : F
  /-- compared with `>`, from item 53 on -/
  dropped : F
  /-- item 6, in its own turn -/
  six : F
  /-- item 25, in the turn of item 7 -/
  twentyFive : F
  /-- item 7, in its own turn -/
  seven : F
  /-- for the change that is written -/
  change : F
  /-- for the count that is recorded -/
  recorded : F

/-- The reads of one report. -/
abbrev Reads (F : Type) := UInt8 → ItemReads F

/-- The reads in a game that stands still. -/
def stillReads [Zero F] (process : HobbitProcessAnalyzer B) : Reads F := fun i =>
  { differs := currentCount process i
    dropped := currentCount process i
    six := currentCount process 6
    twentyFive := currentCount process 25
    seven := currentCount process 7
    change := currentCount process i
    recorded := currentCount process i }

section loop

variable [Zero F] [Sub F] [BEq F] [LT F] [DecidableLT F]

/-- Whether the loop reports item `i`. -/
def reports (reads : Reads F) (inventory : List (UInt8 × F)) (i : UInt8) : Bool :=
  if (countAt inventory i != (reads i).differs && i < 53) ||
      (53 ≤ i && decide ((reads i).dropped < countAt inventory i)) then
    if i = 6 ∧ (reads i).six < countAt inventory 6 then false
    else if i = 7 ∧ (reads i).twentyFive < countAt inventory 25 then false
    else if i = 7 ∧ (reads i).seven < countAt inventory 7 then false
    else true
  else false

/-- The body of the loop for item `i`, after the jumps. -/
def writeItem (reads : Reads F) (st : InventoryLoop B F) (i : UInt8) : InventoryLoop B F :=
  if reports reads st.inventory i then
    let dataVec := addSize 1 (pushTypeToVector i st.dataVec)
    let dataVec :=
      addSize 4 (pushTypeToVector ((reads i).change - countAt st.inventory i) dataVec)
    { dataVec := dataVec
      inventorySend := st.inventorySend + 1
      inventory := setCountAt st.inventory i (reads i).recorded }
  else st

/-- The loop `for (i = 0; i < 56; i++)`; `fuel` bounds the number of turns. -/
def writeItems (reads : Reads F) : ℕ → UInt8 → InventoryLoop B F → InventoryLoop B F
  | 0, _, st => st
  | fuel + 1, i, st =>
    if i < 56 then writeItems reads fuel (skipGap i + 1) (writeItem reads st (skipGap i))
    else st

/-- `writeInventoryEvent`, while the game runs. -/
def writeInventoryEvent (reads : Reads F) (player : MainPlayer F) :
    BaseMessage B × MainPlayer F :=
  let st : InventoryLoop B F := writeItems reads 56 0
    { dataVec := blockHead .inventory, inventorySend := 0, inventory := player.inventory }
  let player := { player with inventory := st.inventory }
  if 0 < st.inventorySend then
    ({ messageType := eventMessage, senderID := 0,
       message := setCount st.inventorySend st.dataVec }, player)
  else (BaseMessage.empty B, player)

theorem writeItems_still (process : HobbitProcessAnalyzer B) (fuel : ℕ) (i : UInt8)
    (st : InventoryLoop B F) :
    writeItems (stillReads process) fuel i st = MainPlayer.writeItems process fuel i st := by
  induction fuel generalizing i st with
  | zero => exact rfl
  | succ fuel ih =>
      rw [writeItems, MainPlayer.writeItems, ih]
      exact rfl

/-- In a game that stands still every read returns the same. -/
theorem writeInventoryEvent_still (process : HobbitProcessAnalyzer B) (player : MainPlayer F) :
    writeInventoryEvent (stillReads process) player =
      MainPlayer.writeInventoryEvent process player := by
  unfold writeInventoryEvent MainPlayer.writeInventoryEvent
  rw [writeItems_still]

theorem writeItems_eq_foldl (reads : Reads F) (fuel : ℕ) (i : UInt8) (st : InventoryLoop B F) :
    writeItems reads fuel i st = (visits fuel i).foldl (writeItem reads) st := by
  induction fuel generalizing i st with
  | zero => exact rfl
  | succ fuel ih =>
      rw [writeItems, visits]
      by_cases hi : i < 56
      · rw [if_pos hi, if_pos hi, List.foldl_cons, ih]
      · rw [if_neg hi, if_neg hi, List.foldl_nil]

/-- The turn of item `i`. -/
def turnOf (reads : Reads F) : ItemTurn F := fun inventory i =>
  if reports reads inventory i then
    some ((reads i).change - countAt inventory i, (reads i).recorded)
  else none

theorem follows_writeItem (reads : Reads F) :
    Follows (writeItem reads : InventoryLoop B F → UInt8 → InventoryLoop B F)
      (turnOf reads) where
  push := by
    intro st i change count hturn
    rcases Option.ite_none_right_eq_some.1 hturn with ⟨hreports, hsome⟩
    obtain ⟨rfl, rfl⟩ := Prod.mk.inj (Option.some.inj hsome)
    rw [writeItem, if_pos hreports]
    exact rfl
  pass := by
    intro st i hturn
    rw [writeItem]
    exact if_neg (by simpa [turnOf] using hturn)

/-- What `writeInventoryEvent` writes and records. -/
theorem writeInventoryEvent_eq (reads : Reads F) (player : MainPlayer F) :
    (writeInventoryEvent reads player : BaseMessage B × MainPlayer F).2 = { player with
        inventory := turnInventory (turnOf reads) visitedItems player.inventory } ∧
      IsEvent (ByteLike.ofByte DataLabel.inventory.toByte) entryBytes
        (turnItems (turnOf reads) visitedItems player.inventory)
        (writeInventoryEvent reads player : BaseMessage B × MainPlayer F).1 := by
  rcases turns_event (follows_writeItem (B := B) reads) player.inventory with ⟨hinventory, hevent⟩
  unfold writeInventoryEvent
  rw [writeItems_eq_foldl, ← visitedItems]
  dsimp only
  rw [apply_ite Prod.fst, apply_ite Prod.snd, ite_self, hinventory]
  exact ⟨rfl, hevent⟩

end loop

/-! ## Reports one after the other -/

/-- A player, and what its reports have sent. -/
structure Reporting (B F : Type) where
  player : MainPlayer F
  sent : List (List B)

variable (F) in
/-- The changes that are sent for an item. -/
def changesOf (item : UInt8) (sent : List (List B)) : List F :=
  deltasOf item (sent.flatMap fun payload => eventEntries UInt8 F payload)

variable [AddCommGroup F] [LinearOrder F]

/-- A report; its reads can return anything. -/
def stepFn (s : Reporting B F) (reads : Reads F) : Option (Reporting B F) :=
  let report : BaseMessage B × MainPlayer F := writeInventoryEvent reads s.player
  some { player := report.2, sent := s.sent ++ (sentPayload report.1).toList }

def step : Reporting B F → Reads F → Reporting B F → Prop := ofFn stepFn

/-- The recorded count of an item. -/
def Reporting.count (s : Reporting B F) (item : UInt8) : F := countAt s.player.inventory item

/-- The changes sent for the item are what its recorded count has changed by. -/
def Conserved (item : UInt8) (s₀ s : Reporting B F) : Prop :=
  (changesOf F item s.sent).sum = s.count item - s₀.count item

/-- If the item is reported, the change and the recorded count come from the same
value. -/
def SameReads (item : UInt8) (s : Reporting B F) (reads : Reads F) : Prop :=
  s.count item ≠ (reads item).differs → (reads item).change = (reads item).recorded

instance (item : UInt8) (s : Reporting B F) (reads : Reads F) :
    Decidable (SameReads item s reads) := inferInstanceAs (Decidable (_ → _))

omit [ByteLike B] [FixedWidth B F 4] in
/-- A tracked item is reported when its count differs, whatever the others are. -/
theorem reports_tracked {item : UInt8} (hitem : Tracked item) (reads : Reads F)
    (inventory : List (UInt8 × F)) :
    reports reads inventory item = (countAt inventory item != (reads item).differs) := by
  exact tracked_rule hitem _ _ _ _ _

/-- What a report does for a tracked item: nothing if it is found as recorded. -/
theorem step_item {item : UInt8} (hitem : Tracked item) {s s' : Reporting B F}
    (hlen : 56 ≤ s.player.inventory.length) {reads : Reads F} (h : step s reads s') :
    56 ≤ s'.player.inventory.length ∧
      (s.count item = (reads item).differs →
        changesOf F item s'.sent = changesOf F item s.sent ∧ s'.count item = s.count item) ∧
      (s.count item ≠ (reads item).differs →
        changesOf F item s'.sent =
            changesOf F item s.sent ++ [(reads item).change - s.count item] ∧
          s'.count item = (reads item).recorded) := by
  cases h
  rcases writeInventoryEvent_eq (B := B) reads s.player with ⟨hplayer, hmessage⟩
  have hown (inventory : List (UInt8 × F)) : turnOf reads inventory item =
      (if (countAt inventory item != (reads item).differs) = true then
        some ((reads item).change - countAt inventory item, (reads item).recorded)
      else none) := by
    rw [turnOf, reports_tracked hitem]
  have hplaces : ∀ i ∈ visitedItems, i.toNat < s.player.inventory.length :=
    fun i hi => (lt_of_mem_visitedItems hi).trans_le hlen
  rcases turnItems_item
    (fun count => if (count != (reads item).differs) = true then
      some ((reads item).change - count, (reads item).recorded) else none)
    hown nodup_visitedItems hplaces with ⟨hdeltas, hcount, hlength⟩
  rw [if_pos hitem.1] at hdeltas hcount
  -- the payload that is sent has the entries of the turns
  have hfew := length_turnItems_le (turnOf reads) s.player.inventory
  have hentries := (hmessage.sent fun size => eventEntries_eventBlock
    (ByteLike.ofByte DataLabel.inventory.toByte : B) size (by omega)).2
  have hchanges : changesOf F item (s.sent ++ (sentPayload
        (writeInventoryEvent reads s.player : BaseMessage B × MainPlayer F).1).toList) =
      changesOf F item s.sent ++
        deltasOf item (turnItems (turnOf reads) visitedItems s.player.inventory) := by
    rw [changesOf, List.flatMap_append, hentries, changesOf, deltasOf, List.filterMap_append]
    exact rfl
  dsimp only [Reporting.count]
  rw [hplayer, hchanges, hdeltas, hcount]
  refine ⟨hlen.trans_eq hlength.symm, ?_, ?_⟩
  · intro hsame
    have hpass : ¬ (countAt s.player.inventory item != (reads item).differs) = true := by
      simpa using hsame
    rw [if_neg hpass]
    exact ⟨List.append_nil _, rfl⟩
  · intro hdiffers
    have hpush : (countAt s.player.inventory item != (reads item).differs) = true := by
      simpa using hdiffers
    rw [if_pos hpush]
    exact ⟨rfl, rfl⟩

/-- A report keeps the sum if, and only if, the two reads agree. -/
theorem conserved_step_iff {item : UInt8} (hitem : Tracked item) {s₀ s s' : Reporting B F}
    (hlen : 56 ≤ s.player.inventory.length) (hs : Conserved item s₀ s) {reads : Reads F}
    (h : step s reads s') : Conserved item s₀ s' ↔ SameReads item s reads := by
  rcases step_item hitem hlen h with ⟨-, hpass, hpush⟩
  unfold Conserved at hs ⊢
  by_cases hsame : s.count item = (reads item).differs
  · rw [(hpass hsame).1, (hpass hsame).2]
    exact iff_of_true hs fun hdiffers => absurd hsame hdiffers
  · have hsum : s.count item - s₀.count item + ((reads item).change - s.count item) =
        (reads item).change - s₀.count item := by abel
    rw [(hpush hsame).1, (hpush hsame).2, List.sum_append, List.sum_singleton, hs, hsum,
      sub_left_inj]
    exact ⟨fun heq _ => heq, fun hagree => hagree hsame⟩

/-- The changes sent for a tracked item add up after every report if, and only if,
at every report of the item the change and the recorded count come from the
same value. -/
theorem conserved_iff {item : UInt8} (hitem : Tracked item) {s₀ : Reporting B F}
    (hlen : 56 ≤ s₀.player.inventory.length) (hsent : s₀.sent = []) (reports : List (Reads F)) :
    EveryStep step s₀ reports (fun _ _ s => Conserved item s₀ s) ↔
      EveryStep step s₀ reports fun s reads _ => SameReads item s reads := by
  refine everyStep_iff
    (fun s => 56 ≤ s.player.inventory.length ∧ Conserved item s₀ s)
    (fun _ _ s => Conserved item s₀ s) (fun s reads _ => SameReads item s reads) ?_ ?_ ?_
  · refine ⟨hlen, ?_⟩
    rw [Conserved, hsent, sub_self]
    exact List.sum_nil
  · intro s reads s' hs hstep hconserved
    exact ⟨(step_item hitem hs.1 hstep).1, hconserved⟩
  · intro s reads s' hs hstep
    exact conserved_step_iff hitem hs.1 hs.2 hstep

/-! ## A count that moves in between -/

/-- A player with no item of any kind. -/
def emptyHanded : Reporting (Cell ℤ) ℤ :=
  { player :=
      { level := 0, enemies := [], inventory := (List.range 56).map fun i => (UInt8.ofNat i, 0) }
    sent := [] }

/-- Reads that find `change` of item 0 and, when it is recorded, `recorded`. -/
def found (change recorded : ℤ) : Reads ℤ := fun i =>
  if i = 0 then ⟨change, change, change, change, change, change, recorded⟩
  else ⟨0, 0, 0, 0, 0, 0, 0⟩

theorem conserved_found : EveryStep step emptyHanded [found 1 1, found 3 3]
    fun _ _ s => Conserved 0 emptyHanded s := by
  refine (conserved_iff (by decide) (by decide) rfl _).2 ?_
  intro bs reads s s' hprefix _ _ _
  have hmem : reads ∈ [found 1 1, found 3 3] := hprefix.subset (by simp)
  rcases List.mem_pair.1 hmem with rfl | rfl
  · exact rfl
  · exact rfl

/-- A piece that is picked up between the two reads is recorded and never sent. -/
theorem piece_lost : ¬ ∀ reports, EveryStep step emptyHanded reports
    fun _ _ s => Conserved 0 emptyHanded s := by
  intro hall
  have hstep : step emptyHanded (found 1 2) _ := rfl
  have hconserved : Conserved 0 emptyHanded _ :=
    hall [found 1 2] [] _ _ _ List.prefix_rfl Run.nil hstep
  rcases step_item (by decide : Tracked 0) (by decide) hstep with ⟨-, -, hpush⟩
  have hdiffers : emptyHanded.count 0 ≠ (found 1 2 0).differs := by decide
  -- 1 is sent, 2 are recorded
  rw [Conserved, (hpush hdiffers).1, (hpush hdiffers).2] at hconserved
  revert hconserved
  decide

end LiveReads

end HobbitSynchrony
