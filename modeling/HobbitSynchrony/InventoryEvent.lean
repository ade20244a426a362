import HobbitSynchrony.EventBlock

/-! # Inventory events

What `writeInventoryEvent` writes and what `readProcessInventory` makes of it.
The writer's loop jumps over some items; it reports most of those it visits
when they differ from the recorded count, some only under further conditions.

* `visitedItems`: the items the loop visits;
* `ItemTurn`, `foldl_turns`, `turns_event`: a loop that writes what its turns say;
* `reportedItems`, `storedItems`: what it writes and what it records;
* `foldl_writeItem_block`: the writer's loop, with the size byte;
* `writeInventoryEvent_message`: the bytes of the event;
* `writeInventoryEvent_eq`: the event in these terms;
* `Tracked`: the items that are reported whenever they differ;
* `readProcessInventory_of_parse`, `applyItems`: the reader applies the entries one by
  one.
-/

namespace HobbitSynchrony

open AddressSpace

variable {B F : Type} [ByteLike B] [FixedWidth B F 4]

/-! ## The items -/

/-- The count of an item in the game's memory. -/
def currentCount [Zero F] (process : HobbitProcessAnalyzer B) (item : UInt8) : F :=
  process.readData F (itemAddress item)

theorem toNat_itemAddress (item : UInt8) :
    (itemAddress item).toNat = 0x0075BDB0 + 4 * item.toNat := by
  have hlt := item.toNat_lt
  rw [itemAddress, UInt32.toNat_add, UInt32.toNat_mul, UInt8.toNat_toUInt32]
  have hptr : ptrInventory.toNat = 0x0075BDB0 := rfl
  have hfour : (0x4 : UInt32).toNat = 4 := rfl
  rw [hptr, hfour]
  omega

/-- The counts of different items lie apart. -/
theorem itemAddress_apart {i j : UInt8} (h : i ≠ j) :
    Apart (itemAddress i) 4 (itemAddress j) 4 := by
  have hi := toNat_itemAddress i
  have hj := toNat_itemAddress j
  have hi' := i.toNat_lt
  have hj' := j.toNat_lt
  have hne : i.toNat ≠ j.toNat := fun heq => h (UInt8.toNat_inj.1 heq)
  -- four bytes for every item, one behind the other
  rcases Nat.lt_or_gt_of_ne hne with hlt | hlt
  · exact apart_of_le (by omega) (by omega)
  · exact (apart_of_le (by omega) (by omega)).symm

omit [ByteLike B] in
theorem currentCount_write [Zero F] {process : HobbitProcessAnalyzer B}
    (hset : process.isProcessSet) (i : UInt8) (count : F) (j : UInt8) :
    currentCount (process.writeData (itemAddress i) count) j =
      if j = i then count else currentCount process j := by
  by_cases hj : j = i
  · subst hj
    rw [if_pos rfl]
    exact HobbitProcessAnalyzer.readData_writeData _ _ _ hset (by norm_num)
  · have hapart := itemAddress_apart fun heq : i = j => hj heq.symm
    rw [if_neg hj, currentCount, currentCount]
    exact HobbitProcessAnalyzer.readData_writeData_of_apart hapart

/-- The items the writer's loop visits, from item `i` on. -/
def visits : ℕ → UInt8 → List UInt8
  | 0, _ => []
  | fuel + 1, i =>
    if i < 56 then MainPlayer.skipGap i :: visits fuel (MainPlayer.skipGap i + 1) else []

/-- The items the writer's loop visits. -/
def visitedItems : List UInt8 := visits 56 0

example : visitedItems = [0, 1, 6, 7, 20, 21, 22, 25, 28, 29, 30, 31, 32, 33, 34, 35, 36, 37, 38,
    39, 40, 41, 42, 43, 44, 45, 47, 48, 49, 52, 53, 54, 55] := by decide

/-- The items that are reported whenever their count differs. -/
def Tracked (item : UInt8) : Prop := item ∈ visitedItems ∧ item < 53 ∧ item ≠ 6 ∧ item ≠ 7

instance (item : UInt8) : Decidable (Tracked item) := inferInstanceAs (Decidable (_ ∧ _))

theorem nodup_visitedItems : visitedItems.Nodup := by decide

theorem lt_of_mem_visitedItems {item : UInt8} (h : item ∈ visitedItems) : item.toNat < 56 := by
  have hall : (visitedItems.all fun i => decide (i.toNat < 56)) = true := by decide
  exact of_decide_eq_true (List.all_eq_true.1 hall item h)

/-! ## Writing -/

section loop

variable [Zero F] [Sub F] [BEq F] [LT F] [DecidableLT F]

/-- The loop visits one item after the other. -/
theorem MainPlayer.writeItems_eq_foldl (process : HobbitProcessAnalyzer B) (fuel : ℕ) (i : UInt8)
    (st : InventoryLoop B F) :
    writeItems process fuel i st = (visits fuel i).foldl (writeItem process) st := by
  induction fuel generalizing i st with
  | zero => rfl
  | succ fuel ih =>
      rw [writeItems, visits]
      by_cases hi : i < 56
      · rw [if_pos hi, if_pos hi, List.foldl_cons, ih]
      · rw [if_neg hi, if_neg hi, List.foldl_nil]

namespace MainPlayer

omit [ByteLike B] [FixedWidth B F 4] [Sub F] [BEq F] [LT F] [DecidableLT F] in
theorem countAt_setCountAt_of_ne {inventory : List (UInt8 × F)} {i j : UInt8} (h : j ≠ i)
    (count : F) : countAt (setCountAt inventory i count) j = countAt inventory j := by
  have hne : i.toNat ≠ j.toNat := fun heq => h (UInt8.toNat_inj.1 heq).symm
  unfold countAt setCountAt
  rw [List.getElem?_modify]
  cases inventory[j.toNat]? with
  | none => exact rfl
  | some entry => simp [hne]

omit [ByteLike B] [FixedWidth B F 4] [Sub F] [BEq F] [LT F] [DecidableLT F] in
/-- Recording one count leaves the others alone. -/
theorem countAt_setCountAt {inventory : List (UInt8 × F)} {i : UInt8}
    (hi : i.toNat < inventory.length) (count : F) (j : UInt8) :
    countAt (setCountAt inventory i count) j = if j = i then count else countAt inventory j := by
  by_cases hj : j = i
  · subst hj
    rw [if_pos rfl, countAt, setCountAt, List.getElem?_modify_eq, List.getElem?_eq_getElem hi]
    exact rfl
  · rw [if_neg hj, countAt_setCountAt_of_ne hj]

omit [ByteLike B] [FixedWidth B F 4] [Zero F] [Sub F] [BEq F] [LT F] [DecidableLT F] in
@[simp] theorem length_setCountAt (inventory : List (UInt8 × F)) (i : UInt8) (count : F) :
    (setCountAt inventory i count).length = inventory.length :=
  List.length_modify _ _ _

/-- Neither the upper range nor a rule for 6 or 7 applies to a tracked item. -/
theorem tracked_rule {item : UInt8} (hitem : Tracked item) (differs dropped : Bool)
    (six twentyFive seven : Prop) [Decidable six] [Decidable twentyFive] [Decidable seven] :
    (if (differs && decide (item < 53) || decide (53 ≤ item) && dropped) = true then
      if item = 6 ∧ six then false
      else if item = 7 ∧ twentyFive then false
      else if item = 7 ∧ seven then false
      else true
    else false) = differs := by
  rcases hitem with ⟨-, hlt, h6, h7⟩
  have hnot : ¬ (53 : UInt8) ≤ item := UInt8.not_le.2 hlt
  cases differs with
  | false => simp [hnot]
  | true => simp [hlt, h6, h7]

/-- What the turn of an item writes and records, if anything: the change and the
new count. -/
abbrev ItemTurn (F : Type) := List (UInt8 × F) → UInt8 → Option (F × F)

/-- The entries that turns over `items` write. -/
def turnItems (turn : ItemTurn F) : List UInt8 → List (UInt8 × F) → List (UInt8 × F)
  | [], _ => []
  | i :: items, inventory =>
    match turn inventory i with
    | some (change, count) => (i, change) :: turnItems turn items (setCountAt inventory i count)
    | none => turnItems turn items inventory

/-- The inventory that turns over `items` leave. -/
def turnInventory (turn : ItemTurn F) : List UInt8 → List (UInt8 × F) → List (UInt8 × F)
  | [], inventory => inventory
  | i :: items, inventory =>
    match turn inventory i with
    | some (_, count) => turnInventory turn items (setCountAt inventory i count)
    | none => turnInventory turn items inventory

/-- An entry is pushed and counted, and its count recorded. -/
def InventoryLoop.push (st : InventoryLoop B F) (i : UInt8) (change count : F) :
    InventoryLoop B F :=
  ⟨addSize 4 (pushTypeToVector change (addSize 1 (pushTypeToVector i st.dataVec))),
    st.inventorySend + 1, setCountAt st.inventory i count⟩

/-- The body of a loop pushes what the turns write. -/
structure Follows (step : InventoryLoop B F → UInt8 → InventoryLoop B F) (turn : ItemTurn F) :
    Prop where
  push : ∀ st i change count, turn st.inventory i = some (change, count) →
    step st i = st.push i change count
  pass : ∀ st i, turn st.inventory i = none → step st i = st

omit [Zero F] [Sub F] [BEq F] [LT F] [DecidableLT F] in
/-- Such a loop appends the entries of the turns, records their counts, and adds
the length of the entries to the size byte. -/
theorem foldl_turns {step : InventoryLoop B F → UInt8 → InventoryLoop B F} {turn : ItemTurn F}
    (hstep : Follows step turn) (items : List UInt8)
    (inventory : List (UInt8 × F)) (label : B) (size : UInt8) (entries : List B)
    (inventorySend : UInt32) :
    items.foldl step
        ⟨eventBlock label (ByteLike.ofByte size) 0 entries, inventorySend, inventory⟩ =
      ⟨eventBlock label
          (ByteLike.ofByte (size + UInt8.ofNat (5 * (turnItems turn items inventory).length))) 0
          (entries ++ (turnItems turn items inventory).flatMap entryBytes),
        inventorySend + UInt32.ofNat (turnItems turn items inventory).length,
        turnInventory turn items inventory⟩ := by
  induction items generalizing inventory size entries inventorySend with
  | nil => simp [turnItems, turnInventory]
  | cons i items ih =>
      rw [List.foldl_cons, turnItems, turnInventory]
      cases hturn : turn inventory i with
      | none => rw [hstep.pass _ i hturn, ih]
      | some result =>
          rcases result with ⟨change, count⟩
          have hentry : entryBytes (i, change) =
              (FixedWidth.encode i ++ FixedWidth.encode change : List B) := rfl
          have hsize (k : ℕ) : size + 1 + 4 + UInt8.ofNat (5 * k) =
              size + UInt8.ofNat (5 * (k + 1)) := by
            rw [Nat.mul_succ, UInt8.ofNat_add, UInt8.add_comm (UInt8.ofNat (5 * k)),
              UInt8.add_assoc, UInt8.add_assoc, ← UInt8.add_assoc 1 4]
            exact rfl
          -- the entry is written and the count recorded, then the loop goes on
          rw [hstep.push _ i change count hturn, InventoryLoop.push]
          dsimp only
          rw [pushTypeToVector_eventBlock, addSize_eventBlock, ByteLike.toByte_ofByte,
            pushTypeToVector_eventBlock, addSize_eventBlock, ByteLike.toByte_ofByte,
            List.append_assoc entries, ← hentry, ih, List.flatMap_cons, List.append_assoc,
            List.length_cons, count_succ, hsize]

omit [Zero F] [Sub F] [BEq F] [LT F] [DecidableLT F] in
/-- The entries name items of the list, in its order. -/
theorem turnItems_sublist (turn : ItemTurn F) (items : List UInt8) (inventory : List (UInt8 × F)) :
    ((turnItems turn items inventory).map Prod.fst).Sublist items := by
  induction items generalizing inventory with
  | nil => exact List.Sublist.refl []
  | cons i items ih =>
      rw [turnItems]
      cases turn inventory i with
      | none => exact (ih inventory).cons i
      | some result => exact (ih _).cons_cons i

omit [Zero F] [Sub F] [BEq F] [LT F] [DecidableLT F] in
/-- There are few enough items for the one byte of the count that is set. -/
theorem length_turnItems_le (turn : ItemTurn F) (inventory : List (UInt8 × F)) :
    (turnItems turn visitedItems inventory).length ≤ 33 := by
  have hlength := (turnItems_sublist turn visitedItems inventory).length_le
  have hitems : visitedItems.length = 33 := by decide
  rw [List.length_map, hitems] at hlength
  exact hlength

omit [Zero F] [Sub F] [BEq F] [LT F] [DecidableLT F] in
/-- A loop over the visited items, with the end of `writeInventoryEvent`. -/
theorem turns_event {step : InventoryLoop B F → UInt8 → InventoryLoop B F} {turn : ItemTurn F}
    (hstep : Follows step turn) (inventory : List (UInt8 × F)) :
    let st : InventoryLoop B F := visitedItems.foldl step ⟨blockHead .inventory, 0, inventory⟩
    st.inventory = turnInventory turn visitedItems inventory ∧
      IsEvent (ByteLike.ofByte DataLabel.inventory.toByte) entryBytes
        (turnItems turn visitedItems inventory)
        (if 0 < st.inventorySend then
          { messageType := eventMessage, senderID := 0,
            message := setCount st.inventorySend st.dataVec }
        else BaseMessage.empty B) := by
  have hloop := foldl_turns hstep visitedItems inventory
    (ByteLike.ofByte DataLabel.inventory.toByte : B) 4 [] 0
  have hlength := length_turnItems_le turn inventory
  rw [← blockHead_eq, List.nil_append, UInt32.zero_add] at hloop
  rw [hloop]
  exact ⟨rfl, isEvent_setCount (by omega) _ _ _⟩

/-- The turn of item `i` in a game that stands still. -/
def turnOf (process : HobbitProcessAnalyzer B) : ItemTurn F := fun inventory i =>
  if reports process inventory i then
    some (currentCount process i - countAt inventory i, currentCount process i)
  else none

/-- The entries that the writer's loop over `items` reports. -/
def reportedItems (process : HobbitProcessAnalyzer B) :
    List UInt8 → List (UInt8 × F) → List (UInt8 × F)
  | [], _ => []
  | i :: items, inventory =>
    if reports process inventory i then
      (i, currentCount process i - countAt inventory i) ::
        reportedItems process items (setCountAt inventory i (currentCount process i))
    else reportedItems process items inventory

/-- The inventory that the writer's loop over `items` leaves. -/
def storedItems (process : HobbitProcessAnalyzer B) :
    List UInt8 → List (UInt8 × F) → List (UInt8 × F)
  | [], inventory => inventory
  | i :: items, inventory =>
    if reports process inventory i then
      storedItems process items (setCountAt inventory i (currentCount process i))
    else storedItems process items inventory

theorem follows_writeItem (process : HobbitProcessAnalyzer B) :
    Follows (writeItem process : InventoryLoop B F → UInt8 → InventoryLoop B F)
      (turnOf process) where
  push := by
    intro st i change count hturn
    rcases Option.ite_none_right_eq_some.1 hturn with ⟨hreports, hsome⟩
    obtain ⟨rfl, rfl⟩ := Prod.mk.inj (Option.some.inj hsome)
    rw [writeItem, if_pos hreports]
    exact rfl
  pass := by
    intro st i hturn
    rw [writeItem]
    exact if_neg (by simpa [turnOf] using hturn)

omit [ByteLike B] in
/-- They are the turns of a game that stands still. -/
theorem reportedItems_eq_turns (process : HobbitProcessAnalyzer B) (items : List UInt8)
    (inventory : List (UInt8 × F)) :
    reportedItems process items inventory = turnItems (turnOf process) items inventory ∧
      storedItems process items inventory = turnInventory (turnOf process) items inventory := by
  induction items generalizing inventory with
  | nil => exact ⟨rfl, rfl⟩
  | cons i items ih =>
      rw [reportedItems, storedItems, turnItems, turnInventory, turnOf]
      by_cases hreports : reports process inventory i = true
      · rw [if_pos hreports, if_pos hreports, if_pos hreports, (ih _).1, (ih _).2]
        exact ⟨rfl, rfl⟩
      · rw [if_neg hreports, if_neg hreports, if_neg hreports, (ih _).1, (ih _).2]
        exact ⟨rfl, rfl⟩

/-- The loop appends an entry for every reported item, records its count, and
adds the length of the entry to the size byte. -/
theorem foldl_writeItem_block (process : HobbitProcessAnalyzer B) (items : List UInt8)
    (inventory : List (UInt8 × F)) (label : B) (size : UInt8) (entries : List B)
    (inventorySend : UInt32) :
    items.foldl (writeItem process)
        ⟨eventBlock label (ByteLike.ofByte size) 0 entries, inventorySend, inventory⟩ =
      ⟨eventBlock label
          (ByteLike.ofByte
            (size + UInt8.ofNat (5 * (reportedItems process items inventory).length))) 0
          (entries ++ (reportedItems process items inventory).flatMap entryBytes),
        inventorySend + UInt32.ofNat (reportedItems process items inventory).length,
        storedItems process items inventory⟩ := by
  rcases reportedItems_eq_turns process items inventory with ⟨hreported, hstored⟩
  rw [hreported, hstored]
  exact foldl_turns (follows_writeItem process) items inventory label size entries inventorySend

omit [ByteLike B] in
/-- The reported entries name items of the list, in its order. -/
theorem reportedItems_sublist (process : HobbitProcessAnalyzer B) (items : List UInt8)
    (inventory : List (UInt8 × F)) :
    ((reportedItems process items inventory).map Prod.fst).Sublist items := by
  rw [(reportedItems_eq_turns process items inventory).1]
  exact turnItems_sublist _ items inventory

omit [ByteLike B] in
theorem length_reportedItems_le (process : HobbitProcessAnalyzer B)
    (inventory : List (UInt8 × F)) :
    (reportedItems process visitedItems inventory).length ≤ 33 := by
  rw [(reportedItems_eq_turns process visitedItems inventory).1]
  exact length_turnItems_le _ inventory

/-- What `writeInventoryEvent` records. -/
theorem writeInventoryEvent_snd (process : HobbitProcessAnalyzer B) (player : MainPlayer F) :
    (writeInventoryEvent process player).2 =
      { player with inventory := storedItems process visitedItems player.inventory } := by
  have hinventory := (turns_event (follows_writeItem process) player.inventory).1
  rw [← (reportedItems_eq_turns process visitedItems player.inventory).2] at hinventory
  unfold writeInventoryEvent
  rw [writeItems_eq_foldl, ← visitedItems]
  dsimp only
  rw [apply_ite Prod.snd, ite_self, hinventory]

omit [ByteLike B] [Sub F] in
theorem length_storedItems (process : HobbitProcessAnalyzer B) (items : List UInt8)
    (inventory : List (UInt8 × F)) :
    (storedItems process items inventory).length = inventory.length := by
  induction items generalizing inventory with
  | nil => exact rfl
  | cons i items ih =>
      rw [storedItems]
      split
      · rw [ih, setCountAt, List.length_modify]
      · exact ih inventory

/-- The message of `writeInventoryEvent`. -/
theorem writeInventoryEvent_message (process : HobbitProcessAnalyzer B) (player : MainPlayer F) :
    (writeInventoryEvent process player).1.message =
      if (reportedItems process visitedItems player.inventory).length = 0 then []
      else eventBlock (ByteLike.ofByte DataLabel.inventory.toByte)
        (ByteLike.ofByte
          (UInt8.ofNat (4 + 5 * (reportedItems process visitedItems player.inventory).length)))
        (reportedItems process visitedItems player.inventory).length
        ((reportedItems process visitedItems player.inventory).flatMap entryBytes) := by
  have hloop := foldl_writeItem_block process visitedItems player.inventory
    (ByteLike.ofByte DataLabel.inventory.toByte : B) 4 [] 0
  have hlength := length_reportedItems_le process player.inventory
  rw [← blockHead_eq, List.nil_append, UInt32.zero_add] at hloop
  unfold writeInventoryEvent
  rw [writeItems_eq_foldl, ← visitedItems, hloop]
  dsimp only
  by_cases hzero : (reportedItems process visitedItems player.inventory).length = 0
  · rw [if_pos hzero, hzero]
    exact rfl
  · -- so few entries that the count does not wrap
    have hsent : 0 < UInt32.ofNat (reportedItems process visitedItems player.inventory).length := by
      rw [UInt32.lt_iff_toNat_lt, UInt32.toNat_ofNat', Nat.mod_eq_of_lt (by omega)]
      exact Nat.pos_of_ne_zero hzero
    rw [if_neg hzero, if_pos hsent, setCount_eq (by omega), UInt8.ofNat_add]
    exact rfl

end MainPlayer

end loop

section writing

variable [AddCommGroup F] [LinearOrder F]

namespace MainPlayer

omit [ByteLike B] in
/-- A tracked item is reported when its count differs, whatever the others are. -/
theorem reports_tracked {item : UInt8} (hitem : Tracked item) (process : HobbitProcessAnalyzer B)
    (inventory : List (UInt8 × F)) :
    reports process inventory item = (countAt inventory item != currentCount process item) := by
  exact tracked_rule hitem _ _ _ _ _

omit [LinearOrder F] in
/-- What turns write and record of an item whose turn depends on its own count
only: nothing if it does not come by. -/
theorem turnItems_item {item : UInt8} {turn : ItemTurn F} (own : F → Option (F × F))
    (hown : ∀ inventory, turn inventory item = own (countAt inventory item))
    {items : List UInt8} (hnodup : items.Nodup) {inventory : List (UInt8 × F)}
    (hitems : ∀ i ∈ items, i.toNat < inventory.length) :
    let result := if item ∈ items then own (countAt inventory item) else none
    deltasOf item (turnItems turn items inventory) = (result.map Prod.fst).toList ∧
      countAt (turnInventory turn items inventory) item =
        (result.map Prod.snd).getD (countAt inventory item) ∧
      (turnInventory turn items inventory).length = inventory.length := by
  induction items generalizing inventory with
  | nil => exact ⟨rfl, rfl, rfl⟩
  | cons i items ih =>
      rw [List.nodup_cons] at hnodup
      have hi := hitems i List.mem_cons_self
      have hrest : ∀ k ∈ items, k.toNat < inventory.length :=
        fun k hk => hitems k (List.mem_cons_of_mem i hk)
      have hrest' (count : F) : ∀ k ∈ items, k.toNat < (setCountAt inventory i count).length := by
        rw [length_setCountAt]
        exact hrest
      rw [turnItems, turnInventory]
      by_cases hx : i = item
      · -- the item itself: the rest of the loop does not come by it again
        subst hx
        rw [if_pos List.mem_cons_self, hown]
        cases hturn : own (countAt inventory i) with
        | none =>
            have hkeep := ih hnodup.2 hrest
            rw [if_neg hnodup.1] at hkeep
            exact hkeep
        | some result =>
            rcases result with ⟨change, count⟩
            have hset := ih hnodup.2 (hrest' count)
            rw [if_neg hnodup.1, length_setCountAt, countAt_setCountAt hi, if_pos rfl] at hset
            rcases hset with ⟨hdeltas, hcount, hlen⟩
            refine ⟨?_, hcount, hlen⟩
            dsimp only
            rw [deltasOf_cons_self, hdeltas]
            exact rfl
      · have hmem : item ∈ i :: items ↔ item ∈ items := by
          rw [List.mem_cons]
          exact or_iff_right fun heq => hx heq.symm
        simp only [hmem]
        cases turn inventory i with
        | none => exact ih hnodup.2 hrest
        | some result =>
            rcases result with ⟨change, count⟩
            have hother : item ≠ i := fun heq => hx heq.symm
            have hset := ih hnodup.2 (hrest' count)
            rw [length_setCountAt, countAt_setCountAt hi, if_neg hother] at hset
            dsimp only
            rw [deltasOf_cons_of_ne hx]
            exact hset

omit [ByteLike B] in
/-- What the loop over `items` writes and records of a tracked item: nothing if
it does not come by, else the difference and the count. -/
theorem reportedItems_tracked {item : UInt8} (hitem : Tracked item)
    (process : HobbitProcessAnalyzer B) {items : List UInt8} (hnodup : items.Nodup)
    {inventory : List (UInt8 × F)} (hitems : ∀ i ∈ items, i.toNat < inventory.length) :
    deltasOf item (reportedItems process items inventory) =
        (if item ∈ items ∧ countAt inventory item ≠ currentCount process item then
          [currentCount process item - countAt inventory item] else []) ∧
      countAt (storedItems process items inventory) item =
        (if item ∈ items then currentCount process item else countAt inventory item) ∧
      (storedItems process items inventory).length = inventory.length := by
  rcases reportedItems_eq_turns process items inventory with ⟨hreported, hstored⟩
  have hown (inventory : List (UInt8 × F)) : turnOf process inventory item =
      (if (countAt inventory item != currentCount process item) = true then
        some (currentCount process item - countAt inventory item, currentCount process item)
      else none) := by
    rw [turnOf, reports_tracked hitem]
  have hturns := turnItems_item
    (fun count => if (count != currentCount process item) = true then
      some (currentCount process item - count, currentCount process item) else none)
    hown hnodup hitems
  rw [hreported, hstored]
  by_cases hmem : item ∈ items
  · by_cases hne : countAt inventory item = currentCount process item
    · simpa [hmem, hne] using hturns
    · simpa [hmem, hne] using hturns
  · simpa [hmem] using hturns

/-- `writeInventoryEvent`: no event if nothing is reported, else the reported
items; their counts are recorded. -/
theorem writeInventoryEvent_eq (process : HobbitProcessAnalyzer B) (player : MainPlayer F) :
    (writeInventoryEvent process player).2 = { player with
        inventory := storedItems process visitedItems player.inventory } ∧
      IsEvent (ByteLike.ofByte DataLabel.inventory.toByte) entryBytes
        (reportedItems process visitedItems player.inventory)
        (writeInventoryEvent process player).1 := by
  have hturns := turns_event (follows_writeItem process) player.inventory
  rw [← (reportedItems_eq_turns process visitedItems player.inventory).1,
    ← (reportedItems_eq_turns process visitedItems player.inventory).2] at hturns
  rcases hturns with ⟨hinventory, hevent⟩
  unfold writeInventoryEvent
  rw [writeItems_eq_foldl, ← visitedItems]
  dsimp only
  rw [apply_ite Prod.fst, apply_ite Prod.snd, ite_self, hinventory]
  exact ⟨rfl, hevent⟩

end MainPlayer

end writing

/-! ## Reading -/

section reading

variable [AddCommGroup F] [LinearOrder F]

/-- An entry: the recorded count plus the change, at least 0, is recorded and
put into the game's memory. -/
def applyItem (g : GameState B F) (entry : UInt8 × F) : GameState B F :=
  let count := changedCount (MainPlayer.countAt g.mainPlayer.inventory entry.1) entry.2
  { g with
    mainPlayer := { g.mainPlayer with
      inventory := MainPlayer.setCountAt g.mainPlayer.inventory entry.1 count }
    process := g.process.writeData (itemAddress entry.1) count }

/-- The entries of an event, applied one after the other. -/
def applyItems (entries : List (UInt8 × F)) (g : GameState B F) : GameState B F :=
  entries.foldl applyItem g

/-- The event of a queue, handled by `readProcessInventory`; the label and the
size have been taken off. -/
def processInventory (payload : List B) (g : GameState B F) : GameState B F :=
  match readProcessInventory ⟨payload.drop 2, g⟩ with
  | .ok _ s => s.game
  | .error _ s => s.game

omit [ByteLike B] in
theorem applyInventory_eq {entry : UInt8 × F} {g : GameState B F}
    (h : entry.1.toNat < g.mainPlayer.inventory.length) (q : List B) :
    applyInventory entry.1 entry.2 ⟨q, g⟩ = .ok () ⟨q, applyItem g entry⟩ := by
  have hget := List.getElem?_eq_getElem h
  have hcount : MainPlayer.countAt g.mainPlayer.inventory entry.1 =
      g.mainPlayer.inventory[entry.1.toNat].2 := by
    rw [MainPlayer.countAt, hget]
  have hset : ∀ count : F, MainPlayer.setCountAt g.mainPlayer.inventory entry.1 count =
      g.mainPlayer.inventory.set entry.1.toNat
        (g.mainPlayer.inventory[entry.1.toNat].1, count) := by
    intro count
    refine List.ext_getElem? fun k => ?_
    rw [MainPlayer.setCountAt, List.getElem?_modify, List.getElem?_set]
    by_cases hk : entry.1.toNat = k
    · subst hk
      simp [h]
    · simp [hk]
  rw [applyInventory]
  dsimp only
  rw [hget]
  dsimp only
  rw [applyItem, hcount, hset]

omit [ByteLike B] in
@[simp] theorem length_inventory_applyItem (g : GameState B F) (entry : UInt8 × F) :
    (applyItem g entry).mainPlayer.inventory.length = g.mainPlayer.inventory.length :=
  List.length_modify _ _ _

omit [ByteLike B] in
theorem applyInventories_eq (entries : List (UInt8 × F)) {g : GameState B F}
    (h : ItemsBelow g.mainPlayer.inventory.length entries) (q : List B) :
    applyInventories entries ⟨q, g⟩ = .ok () ⟨q, applyItems entries g⟩ := by
  induction entries generalizing g with
  | nil => rfl
  | cons entry entries ih =>
      have hfirst := applyInventory_eq (h entry List.mem_cons_self) q
      have hrest : ItemsBelow (applyItem g entry).mainPlayer.inventory.length entries := by
        rw [length_inventory_applyItem]
        exact fun e he => h e (List.mem_cons_of_mem entry he)
      rw [applyInventories, bind_ok hfirst, ih hrest]
      rfl

/-- `readProcessInventory` applies the parsed pairs, in order. -/
theorem readProcessInventory_of_parse {s s' : Handling B F} {entries : List (UInt8 × F)}
    (h : parseEntries UInt8 s = .ok entries s') :
    readProcessInventory s = applyInventories entries s' := by
  rcases bind_eq_ok h with ⟨number, t, hnumber, hread⟩
  rw [readProcessInventory, bind_ok hnumber, bind_ok hread]

/-- `readProcessInventory` applies the entries that follow the count. -/
theorem readProcessInventory_flatMap (entries : List (UInt8 × F)) (hlt : entries.length < 2 ^ 32)
    {g : GameState B F} (h : ItemsBelow g.mainPlayer.inventory.length entries) :
    readProcessInventory
        ⟨FixedWidth.encode (UInt32.ofNat entries.length) ++ entries.flatMap entryBytes, g⟩ =
      .ok () ⟨[], applyItems entries g⟩ := by
  rw [readProcessInventory_of_parse (parseEntries_flatMap hlt g), applyInventories_eq entries h]

theorem processInventory_eventBlock (label size : B) (entries : List (UInt8 × F))
    (hlt : entries.length < 2 ^ 32) {g : GameState B F}
    (h : ItemsBelow g.mainPlayer.inventory.length entries) :
    processInventory (eventBlock label size entries.length (entries.flatMap entryBytes)) g =
      applyItems entries g := by
  rw [processInventory, eventBlock, List.drop_succ_cons, List.drop_succ_cons, List.drop_zero,
    readProcessInventory_flatMap entries hlt h]

/-- `readGameMessage` does the same with the event, if the label is enabled. -/
theorem readGameMessage_inventory {states : LabelStates}
    (enabled : states.processLabel .inventory = true) (senderID : UInt8) (size : B)
    (entries : List (UInt8 × F)) (hlt : entries.length < 2 ^ 32) {g : GameState B F}
    (h : ItemsBelow g.mainPlayer.inventory.length entries) :
    readGameMessage states senderID
        ⟨eventBlock (ByteLike.ofByte DataLabel.inventory.toByte) size entries.length
          (entries.flatMap entryBytes), g⟩ =
      .ok () ⟨[], applyItems entries g⟩ := by
  have hlabel : DataLabel.ofByte (ByteLike.toByte
      (ByteLike.ofByte DataLabel.inventory.toByte : B)) = .inventory := by
    rw [ByteLike.toByte_ofByte]
    rfl
  exact readGameMessage_eventBlock hlabel enabled (readProcessInventory_flatMap entries hlt h)

omit [ByteLike B] in
/-- What the entries do to one item: the changes that name it are added one by
one to the recorded count, and the memory gets the result. -/
theorem applyItems_item (entries : List (UInt8 × F)) {g : GameState B F}
    (hset : g.process.isProcessSet) (h : ItemsBelow g.mainPlayer.inventory.length entries)
    (item : UInt8) :
    (applyItems entries g).process.isProcessSet ∧
      (applyItems entries g).mainPlayer.inventory.length = g.mainPlayer.inventory.length ∧
      MainPlayer.countAt (applyItems entries g).mainPlayer.inventory item =
        (deltasOf item entries).foldl changedCount
          (MainPlayer.countAt g.mainPlayer.inventory item) ∧
      currentCount (applyItems entries g).process item =
        if deltasOf item entries = [] then currentCount g.process item
        else (deltasOf item entries).foldl changedCount
          (MainPlayer.countAt g.mainPlayer.inventory item) := by
  induction entries generalizing g with
  | nil =>
      refine ⟨hset, rfl, rfl, ?_⟩
      exact (if_pos rfl).symm
  | cons entry entries ih =>
      have hfirst := h entry List.mem_cons_self
      have hset' : (applyItem g entry).process.isProcessSet := by
        rw [applyItem, HobbitProcessAnalyzer.isProcessSet_writeData]
        exact hset
      have hrest : ItemsBelow (applyItem g entry).mainPlayer.inventory.length entries := by
        rw [length_inventory_applyItem]
        exact fun e he => h e (List.mem_cons_of_mem entry he)
      rcases ih hset' hrest with ⟨hset'', hlen, hcount, hcurrent⟩
      have hcons : applyItems (entry :: entries) g = applyItems entries (applyItem g entry) := rfl
      rw [length_inventory_applyItem] at hlen
      rw [hcons]
      refine ⟨hset'', hlen, ?_⟩
      by_cases hitem : entry.1 = item
      · -- the entry names the item
        subst hitem
        have hrecorded : MainPlayer.countAt (applyItem g entry).mainPlayer.inventory entry.1 =
            changedCount (MainPlayer.countAt g.mainPlayer.inventory entry.1) entry.2 := by
          rw [applyItem, MainPlayer.countAt_setCountAt hfirst, if_pos rfl]
        have hmemory : currentCount (applyItem g entry).process entry.1 =
            changedCount (MainPlayer.countAt g.mainPlayer.inventory entry.1) entry.2 := by
          rw [applyItem, currentCount_write hset, if_pos rfl]
        have hdeltas : deltasOf entry.1 (entry :: entries) = entry.2 :: deltasOf entry.1 entries :=
          deltasOf_cons_self entry.2 entries
        rw [hrecorded] at hcount hcurrent
        rw [hmemory] at hcurrent
        rw [hdeltas, List.foldl_cons, if_neg (List.cons_ne_nil _ _)]
        refine ⟨hcount, ?_⟩
        rw [hcurrent]
        by_cases hnone : deltasOf entry.1 entries = []
        · rw [if_pos hnone, hnone, List.foldl_nil]
        · rw [if_neg hnone]
      · -- the entry names another item
        have hrecorded : MainPlayer.countAt (applyItem g entry).mainPlayer.inventory item =
            MainPlayer.countAt g.mainPlayer.inventory item := by
          rw [applyItem, MainPlayer.countAt_setCountAt hfirst, if_neg fun heq => hitem heq.symm]
        have hmemory : (currentCount (applyItem g entry).process item : F) =
            currentCount g.process item := by
          rw [applyItem, currentCount_write hset, if_neg fun heq => hitem heq.symm]
        have hdeltas : deltasOf item (entry :: entries) = deltasOf item entries :=
          deltasOf_cons_of_ne hitem entries
        rw [hrecorded] at hcount hcurrent
        rw [hmemory] at hcurrent
        rw [hdeltas]
        exact ⟨hcount, hcurrent⟩

end reading

end HobbitSynchrony
