import HobbitSynchrony.EventParsing
import HobbitSynchrony.Lib.FloatOrder

/-! # Two reports in a row

`writeInventoryEvent` called twice while the game stands still. Item 7 is held
back while item 25 is below its recorded count; but later in the same loop the
count of 25 is recorded, and the next call reports 7 after all.

* `reportedItems_eq_nil_iff`: a call that reports nothing;
* `countAt_storedItems`: what a call records, by the tests before the loop;
* `reports_storedItems_of_ne`, `reports_storedItems_seven`: the items that a second
  call reports;
* `second_report_empty_iff`: there are none, if no count is not a number and item
  7 has not been held back by item 25;
* `held_back_once`: a change that is held back at one call only.
-/

namespace HobbitSynchrony

namespace MainPlayer

variable {B F : Type} [ByteLike B] [FixedWidth B F 4] [Zero F] [Sub F] [BEq F] [LT F]
  [DecidableLT F]

/-! ## One call -/

omit [ByteLike B] in
/-- Nothing is reported if no item is at first: nothing is recorded then. -/
theorem reportedItems_eq_nil_iff (process : HobbitProcessAnalyzer B) (items : List UInt8)
    (inventory : List (UInt8 × F)) :
    reportedItems process items inventory = [] ↔
      ∀ i ∈ items, reports process inventory i = false := by
  induction items with
  | nil =>
      rw [reportedItems]
      simp
  | cons i items ih =>
      rw [reportedItems, List.forall_mem_cons]
      cases hreports : reports process inventory i with
      | true => simp
      | false => simpa using ih

/-- A call returns the empty message exactly if nothing is reported. -/
theorem writeInventoryEvent_eq_empty_iff (process : HobbitProcessAnalyzer B)
    (player : MainPlayer F) :
    (writeInventoryEvent process player).1 = BaseMessage.empty B ↔
      ∀ i ∈ visitedItems, reports process player.inventory i = false := by
  rw [← reportedItems_eq_nil_iff]
  constructor
  · intro hempty
    by_contra hsome
    have hmessage := writeInventoryEvent_message process player
    rw [hempty, if_neg fun hzero => hsome (List.length_eq_zero_iff.1 hzero)] at hmessage
    cases hmessage
  · intro hnone
    have hloop := foldl_writeItem_block process visitedItems player.inventory
      (ByteLike.ofByte DataLabel.inventory.toByte : B) 4 [] 0
    rw [← blockHead_eq, hnone] at hloop
    unfold writeInventoryEvent
    rw [writeItems_eq_foldl, ← visitedItems, hloop]
    exact rfl

omit [ByteLike B] [Sub F] in
/-- A count recorded earlier in the loop does not count for the items behind. -/
theorem reports_setCountAt_of_lt (process : HobbitProcessAnalyzer B) (inventory : List (UInt8 × F))
    {i j : UInt8} (h : i < j) (count : F) :
    reports process (setCountAt inventory i count) j = reports process inventory j := by
  have hj : countAt (setCountAt inventory i count) j = countAt inventory j :=
    countAt_setCountAt_of_ne (by rintro rfl; exact absurd h (UInt8.lt_irrefl _)) count
  -- the tests for 6 and 7 are made of these themselves and of 25
  by_cases hseven : j = 7
  · subst hseven
    have htwentyFive : countAt (setCountAt inventory i count) 25 = countAt inventory 25 :=
      countAt_setCountAt_of_ne (by rintro rfl; exact absurd h (by decide)) count
    simp [reports, hj, htwentyFive]
  · by_cases hsix : j = 6
    · subst hsix
      simp [reports, hj]
    · simp [reports, hj, hseven, hsix]

omit [ByteLike B] [Sub F] in
/-- What a loop over ascending items records: the items that pass the test with
what was recorded before the loop. -/
theorem countAt_storedItems (process : HobbitProcessAnalyzer B) {items : List UInt8}
    (hitems : items.Pairwise (· < ·)) {inventory : List (UInt8 × F)}
    (hlen : ∀ i ∈ items, i.toNat < inventory.length) (j : UInt8) :
    countAt (storedItems process items inventory) j =
      if j ∈ items ∧ reports process inventory j then currentCount process j
      else countAt inventory j := by
  induction items generalizing inventory with
  | nil => exact (if_neg fun h => List.not_mem_nil h.1).symm
  | cons i items ih =>
      rcases List.pairwise_cons.1 hitems with ⟨hfirst, hrest⟩
      have hlater (k : UInt8) (hk : k ∈ items) : k.toNat < inventory.length :=
        hlen k (List.mem_cons_of_mem i hk)
      have hfresh : i ∉ items := fun hmem => absurd (hfirst i hmem) (UInt8.lt_irrefl i)
      rw [storedItems]
      by_cases hreports : reports process inventory i
      · rw [if_pos hreports, ih hrest (by simpa [setCountAt] using hlater)]
        by_cases hj : j = i
        · subst hj
          rw [if_neg fun h => hfresh h.1, if_pos ⟨List.mem_cons_self, hreports⟩,
            countAt_setCountAt (hlen j List.mem_cons_self), if_pos rfl]
        · rw [countAt_setCountAt_of_ne hj]
          by_cases hmem : j ∈ items
          · rw [reports_setCountAt_of_lt process inventory (hfirst j hmem)]
            simp [hmem]
          · simp [hmem, hj]
      · rw [if_neg hreports, ih hrest hlater]
        by_cases hj : j = i
        · subst hj
          simp [hreports]
        · simp [hj]

/-! ## Two calls -/

/-- The change of item 7 is held back because 25 has dropped. -/
def HeldBack (process : HobbitProcessAnalyzer B) (inventory : List (UInt8 × F)) : Prop :=
  (countAt inventory 7 != (currentCount process 7 : F)) = true ∧
    ¬ currentCount process 7 < countAt inventory 7 ∧
    currentCount process 25 < countAt inventory 25

instance (process : HobbitProcessAnalyzer B) (inventory : List (UInt8 × F)) :
    Decidable (HeldBack process inventory) :=
  inferInstanceAs (Decidable (_ ∧ _ ∧ _))

/-- The count of an item in memory is not a number. -/
def NotANumber (F : Type) [FixedWidth B F 4] [Zero F] [BEq F] (process : HobbitProcessAnalyzer B)
    (i : UInt8) : Prop :=
  ((currentCount process i : F) != currentCount process i) = true

omit [ByteLike B] [Sub F] in
/-- The test for an item other than 7 is about that item alone. -/
theorem reports_iff_of_ne (process : HobbitProcessAnalyzer B) (inventory : List (UInt8 × F))
    {i : UInt8} (hi : i ≠ 7) :
    reports process inventory i = true ↔
      (i < 53 ∧ (countAt inventory i != (currentCount process i : F)) = true ∨
        53 ≤ i ∧ currentCount process i < countAt inventory i) ∧
      ¬ (i = 6 ∧ currentCount process i < countAt inventory i) := by
  have hnow (j : UInt8) : (process.readData F (itemAddress j) : F) = currentCount process j := rfl
  by_cases hsix : i = 6
  · subst hsix
    simp [reports, hnow]
  · simp [reports, hnow, hi, hsix, and_comm]

omit [ByteLike B] [Sub F] in
theorem reports_seven_iff (process : HobbitProcessAnalyzer B) (inventory : List (UInt8 × F)) :
    reports process inventory 7 = true ↔
      (countAt inventory 7 != (currentCount process 7 : F)) = true ∧
        ¬ currentCount process 25 < countAt inventory 25 ∧
        ¬ currentCount process 7 < countAt inventory 7 := by
  have hnow (j : UInt8) : (process.readData F (itemAddress j) : F) = currentCount process j := rfl
  simp [reports, hnow]

variable [FloatOrder F]

omit [ByteLike B] [Sub F] [FloatOrder F] in
/-- A visited item after a call. -/
theorem countAt_storedItems_visited (process : HobbitProcessAnalyzer B)
    {inventory : List (UInt8 × F)} (hlen : 56 ≤ inventory.length) {i : UInt8}
    (hi : i ∈ visitedItems) :
    countAt (storedItems process visitedItems inventory) i =
      if reports process inventory i then currentCount process i else countAt inventory i := by
  rw [countAt_storedItems process pairwise_visitedItems
    (fun j hj => (lt_of_mem_visitedItems hj).trans_le hlen)]
  simp [hi]

omit [ByteLike B] [Sub F] in
/-- After a call, an item other than 7 passes the test only if it is not a
number. -/
theorem reports_storedItems_of_ne (process : HobbitProcessAnalyzer B)
    {inventory : List (UInt8 × F)} (hlen : 56 ≤ inventory.length) {i : UInt8}
    (hi : i ∈ visitedItems) (hseven : i ≠ 7) :
    reports process (storedItems process visitedItems inventory) i = true ↔
      i < 53 ∧ NotANumber F process i := by
  have hcount := countAt_storedItems_visited process hlen hi
  have hirrefl := FloatOrder.lt_irrefl (currentCount process i : F)
  rw [reports_iff_of_ne process _ hseven, hcount]
  by_cases hreports : reports process inventory i
  · -- it has been recorded as it is
    rw [if_pos hreports]
    simp [hirrefl, NotANumber]
  · rw [if_neg hreports, ← reports_iff_of_ne process _ hseven]
    constructor
    · intro h
      exact absurd h hreports
    · rintro ⟨hlt, hnan⟩
      -- it would have been reported
      refine absurd ?_ hreports
      rw [reports_iff_of_ne process _ hseven]
      exact ⟨.inl ⟨hlt, FloatOrder.bne_of_nan hnan _⟩,
        fun h => FloatOrder.not_lt_of_nan hnan _ h.2⟩

omit [ByteLike B] [Sub F] in
/-- After a call, item 7 passes the test if it is not a number, or if it has been
held back: by now the count of 25 is recorded. -/
theorem reports_storedItems_seven (process : HobbitProcessAnalyzer B)
    {inventory : List (UInt8 × F)} (hlen : 56 ≤ inventory.length) :
    reports process (storedItems process visitedItems inventory) 7 = true ↔
      NotANumber F process 7 ∨ HeldBack process inventory := by
  have hcount := countAt_storedItems_visited process hlen (by decide : (7 : UInt8) ∈ visitedItems)
  have hother := countAt_storedItems_visited process hlen (by decide : (25 : UInt8) ∈ visitedItems)
  have hirrefl := FloatOrder.lt_irrefl (currentCount process 25 : F)
  -- in either case 25 is not below what is recorded
  have hrecorded : ¬ (currentCount process 25 : F) <
      countAt (storedItems process visitedItems inventory) 25 := by
    rw [hother]
    by_cases hreports : reports process inventory 25
    · rw [if_pos hreports]
      exact hirrefl
    · rw [if_neg hreports]
      intro hlt
      apply hreports
      rw [reports_iff_of_ne process _ (by decide)]
      exact ⟨.inl ⟨by decide, FloatOrder.bne_of_lt hlt⟩, fun h => absurd h.1 (by decide)⟩
  rw [reports_seven_iff, hcount]
  by_cases hreports : reports process inventory 7
  · -- reported, so it was not held back and is recorded as it is
    have hfirst := (reports_seven_iff process inventory).1 hreports
    have hheld : ¬ HeldBack process inventory := fun h => hfirst.2.1 h.2.2
    have hself := FloatOrder.lt_irrefl (currentCount process 7 : F)
    rw [if_pos hreports]
    simp [hrecorded, hself, hheld, NotANumber]
  · rw [if_neg hreports]
    constructor
    · rintro ⟨hdiffers, -, hdropped⟩
      rw [reports_seven_iff] at hreports
      have hless : currentCount process 25 < countAt inventory 25 := by
        by_contra hless
        exact hreports ⟨hdiffers, hless, hdropped⟩
      exact .inr ⟨hdiffers, hdropped, hless⟩
    · rintro (hnan | hheld)
      · exact ⟨FloatOrder.bne_of_nan hnan _, hrecorded, FloatOrder.not_lt_of_nan hnan _⟩
      · exact ⟨hheld.1, hrecorded, hheld.2.1⟩

/-- The second of two calls returns the empty message exactly if no count below 53
is not a number and item 7 was not held back at the first one. -/
theorem second_report_empty_iff (process : HobbitProcessAnalyzer B) (player : MainPlayer F)
    (hlen : 56 ≤ player.inventory.length) :
    (writeInventoryEvent process (writeInventoryEvent process player).2).1 = BaseMessage.empty B ↔
      (∀ i ∈ visitedItems, i < 53 → ¬ NotANumber F process i) ∧
        ¬ HeldBack process player.inventory := by
  have hseven : (7 : UInt8) ∈ visitedItems := by decide
  have hreports := reports_storedItems_seven process hlen
  rw [writeInventoryEvent_eq_empty_iff, writeInventoryEvent_snd]
  dsimp only
  constructor
  · intro hnone
    constructor
    · intro i hi hlt hnan
      have hagain : reports process
          (storedItems process visitedItems player.inventory) i = true := by
        by_cases h : i = 7
        · subst h
          exact hreports.2 (.inl hnan)
        · exact (reports_storedItems_of_ne process hlen hi h).2 ⟨hlt, hnan⟩
      rw [hnone i hi] at hagain
      cases hagain
    · intro hheld
      have hagain := hreports.2 (.inr hheld)
      rw [hnone 7 hseven] at hagain
      cases hagain
  · rintro ⟨hnumbers, hheld⟩ i hi
    rw [Bool.eq_false_iff]
    intro hagain
    by_cases h : i = 7
    · subst h
      exact (hreports.1 hagain).elim (hnumbers 7 hi (by decide)) hheld
    · have hnan := (reports_storedItems_of_ne process hlen hi h).1 hagain
      exact hnumbers i hi hnan.1 hnan.2

/-! ## A change that is held back once -/

/-- A game with four pieces of item 7 and none of item 25. -/
def thrownGame : HobbitProcessAnalyzer (Cell ℤ) where
  isProcessSet := true
  memory := AddressSpace.write (fun _ => .byte 0) (itemAddress 7) (4 : ℤ)
  objectStackAddress := 0
  objectStackSize := 0

/-- A player who has recorded so many pieces of item 25 and nothing else. -/
def withItem25 (count : ℤ) : MainPlayer ℤ where
  level := 0
  enemies := []
  inventory := (List.range 56).map fun item => (UInt8.ofNat item, if item = 25 then count else 0)

theorem length_withItem25 (count : ℤ) : 56 ≤ (withItem25 count).inventory.length := by
  simp [withItem25]

/-- Item 7 alone is reported at the first call, and nothing at the second. -/
theorem second_report_empty_thrownGame :
    (writeInventoryEvent thrownGame (writeInventoryEvent thrownGame (withItem25 0)).2).1 =
      BaseMessage.empty (Cell ℤ) := by
  refine (second_report_empty_iff thrownGame (withItem25 0) (length_withItem25 0)).2 ⟨?_, ?_⟩
  · intro i hi hlt hnan
    simp [NotANumber] at hnan
  · decide

/-- At the first call item 25 has dropped, which alone is reported; at the second
item 7 is. -/
theorem held_back_once :
    ¬ ∀ (process : HobbitProcessAnalyzer (Cell ℤ)) (player : MainPlayer ℤ),
      56 ≤ player.inventory.length →
      (writeInventoryEvent process (writeInventoryEvent process player).2).1 =
        BaseMessage.empty (Cell ℤ) := by
  intro hall
  have hempty := hall thrownGame (withItem25 1) (length_withItem25 1)
  rw [writeInventoryEvent_eq_empty_iff, writeInventoryEvent_snd] at hempty
  have hseven := hempty 7 (by decide)
  revert hseven
  decide

end MainPlayer

end HobbitSynchrony
