import HobbitSynchrony.FailedBlocks
import HobbitSynchrony.Lib.ClampedSum
import HobbitSynchrony.LiveCounts

/-! # The order of inventory messages

The relay hands the messages of two senders to different clients in different
orders. Every change is added to the recorded count, and a count below 0 becomes
0 at once; so the order is visible near 0, and only there.

* `receiveItems`: inventory messages one after the other;
* `getElem?_inventory_applyItems`, `currentCount_applyItems`: what they do to an
  item is a `clampedSum`;
* `OrderFree`: the clamp makes no difference between the two orders;
* `messages_commute_iff`: two messages commute if and only if that holds of every
  item;
* `orders_differ`: a piece that is there in one order only.
-/

namespace HobbitSynchrony

open ClampedSum

variable {B F : Type} [ByteLike B] [FixedWidth B F 4]

variable (F) in
/-- The entries that are applied of an inventory message, the queue behind label
and size: all or none. -/
def wholeItems (q : List B) : List (UInt8 × F) :=
  if blockLength .inventory q ≤ q.length then namedItems F q else []

variable [AddCommGroup F] [LinearOrder F]

/-- Inventory messages one after the other. -/
def receiveItems (messages : List (List B)) (g : GameState B F) : GameState B F :=
  messages.foldl (fun g q => gameAfter (readProcessInventory ⟨q, g⟩)) g

theorem gameAfter_readProcessInventory {q : List B} {g : GameState B F}
    (h : ItemsBelow g.mainPlayer.inventory.length (wholeItems F q)) :
    gameAfter (readProcessInventory ⟨q, g⟩) = applyItems (wholeItems F q) g := by
  unfold wholeItems at h ⊢
  by_cases hwhole : blockLength .inventory q ≤ q.length
  · rw [if_pos hwhole] at h ⊢
    rw [readProcessInventory_complete hwhole, applyInventories_eq _ h]
    exact rfl
  · rw [if_neg hwhole]
    exact readProcessInventory_short (Nat.lt_of_not_le hwhole) g

/-! ## One item -/

omit [FixedWidth B F 4] [ByteLike B] in
theorem foldl_changedCount (count : F) (changes : List F) :
    changes.foldl changedCount count = clampedSum count changes := by
  have hstep : (changedCount : F → F → F) = fun count change => max 0 (count + change) := by
    funext count change
    exact LiveCounts.changedCount_eq_max count change
  rw [hstep]
  exact rfl

/-- The changes of the entries that name the place `k` of the inventory. -/
def changesAt (k : ℕ) (entries : List (UInt8 × F)) : List F :=
  entries.filterMap fun entry => if entry.1.toNat = k then some entry.2 else none

omit [ByteLike B] [FixedWidth B F 4] [AddCommGroup F] [LinearOrder F] in
theorem changesAt_toNat (item : UInt8) (entries : List (UInt8 × F)) :
    changesAt item.toNat entries = deltasOf item entries := by
  unfold changesAt deltasOf
  simp only [UInt8.toNat_inj]

omit [ByteLike B] [FixedWidth B F 4] [AddCommGroup F] [LinearOrder F] in
theorem changesAt_eq_nil {k : ℕ} {entries : List (UInt8 × F)}
    (h : ∀ entry ∈ entries, entry.1.toNat ≠ k) : changesAt k entries = [] := by
  rw [changesAt, List.filterMap_eq_nil_iff]
  intro entry hentry
  exact if_neg (h entry hentry)

omit [ByteLike B] in
/-- What the entries do to one place of the inventory. -/
theorem getElem?_inventory_applyItems (entries : List (UInt8 × F)) (g : GameState B F) (k : ℕ) :
    (applyItems entries g).mainPlayer.inventory[k]? =
      g.mainPlayer.inventory[k]?.map fun entry =>
        (entry.1, clampedSum entry.2 (changesAt k entries)) := by
  induction entries generalizing g with
  | nil =>
      cases hget : g.mainPlayer.inventory[k]? with
      | none => simpa [applyItems] using hget
      | some entry => simpa [applyItems, changesAt] using hget
  | cons entry entries ih =>
      have hcons : applyItems (entry :: entries) g = applyItems entries (applyItem g entry) := rfl
      rw [hcons, ih, applyItem, MainPlayer.setCountAt, List.getElem?_modify]
      by_cases hk : entry.1.toNat = k
      · -- the entry is for this place
        subst hk
        have hfirst : changesAt entry.1.toNat (entry :: entries) =
            entry.2 :: changesAt entry.1.toNat entries := by
          simp [changesAt]
        rw [hfirst, MainPlayer.countAt]
        cases g.mainPlayer.inventory[entry.1.toNat]? with
        | none => exact rfl
        | some recorded => simp [LiveCounts.changedCount_eq_max]
      · have hskip : changesAt k (entry :: entries) = changesAt k entries := by
          simp [changesAt, hk]
        rw [hskip]
        simp [hk]

omit [ByteLike B] in
theorem length_inventory_applyItems (entries : List (UInt8 × F)) (g : GameState B F) :
    (applyItems entries g).mainPlayer.inventory.length = g.mainPlayer.inventory.length := by
  induction entries generalizing g with
  | nil => exact rfl
  | cons entry entries ih =>
      exact (ih (applyItem g entry)).trans (length_inventory_applyItem g entry)

omit [ByteLike B] in
/-- Without a process nothing is written. -/
theorem process_applyItems (entries : List (UInt8 × F)) {g : GameState B F}
    (hset : ¬ g.process.isProcessSet) : (applyItems entries g).process = g.process := by
  induction entries generalizing g with
  | nil => exact rfl
  | cons entry entries ih =>
      have hcons : applyItems (entry :: entries) g = applyItems entries (applyItem g entry) := rfl
      have hkept : (applyItem g entry).process = g.process := if_neg hset
      rw [hcons, ih (by rwa [hkept]), hkept]

omit [ByteLike B] in
/-- What the entries do to one count in the game's memory. -/
theorem currentCount_applyItems (entries : List (UInt8 × F)) {g : GameState B F}
    (h : ItemsBelow g.mainPlayer.inventory.length entries) (item : UInt8) :
    currentCount (applyItems entries g).process item =
      if g.process.isProcessSet ∧ deltasOf item entries ≠ [] then
        clampedSum (MainPlayer.countAt g.mainPlayer.inventory item) (deltasOf item entries)
      else currentCount g.process item := by
  by_cases hset : g.process.isProcessSet
  · have hitem := (applyItems_item entries hset h item).2.2.2
    rw [hitem, foldl_changedCount]
    by_cases hnone : deltasOf item entries = []
    · rw [if_pos hnone, if_neg fun hboth => hboth.2 hnone]
    · rw [if_neg hnone, if_pos ⟨hset, hnone⟩]
  · rw [process_applyItems entries hset, if_neg fun hboth => hset hboth.1]

/-! ## Two messages -/

/-- Two clients have recorded the same counts, and their games have them in
memory. -/
structure SameItems (g g' : GameState B F) : Prop where
  inventory : g.mainPlayer.inventory = g'.mainPlayer.inventory
  counts : ∀ item, currentCount g.process item = (currentCount g'.process item : F)

/-- The count of an item does not depend on the order of two lists of entries:
either no order takes it below the plain sum, or both leave the same of 0. -/
def OrderFree (recorded : F) (changes changes' : List F) : Prop :=
  floor (changes ++ changes') ≤ recorded + (changes.sum + changes'.sum) ∧
      floor (changes' ++ changes) ≤ recorded + (changes.sum + changes'.sum) ∨
    floor (changes ++ changes') = floor (changes' ++ changes)

instance (recorded : F) (changes changes' : List F) :
    Decidable (OrderFree recorded changes changes') :=
  inferInstanceAs (Decidable (_ ∨ _))

variable [IsOrderedAddMonoid F]

omit [ByteLike B] [FixedWidth B F 4] in
theorem orderFree_iff (recorded : F) (item : UInt8) (entries entries' : List (UInt8 × F)) :
    OrderFree recorded (deltasOf item entries) (deltasOf item entries') ↔
      clampedSum recorded (changesAt item.toNat (entries ++ entries')) =
        clampedSum recorded (changesAt item.toNat (entries' ++ entries)) := by
  have happend (entries entries' : List (UInt8 × F)) :
      changesAt item.toNat (entries ++ entries') =
        deltasOf item entries ++ deltasOf item entries' := by
    rw [changesAt, List.filterMap_append]
    exact congrArg₂ _ (changesAt_toNat item entries) (changesAt_toNat item entries')
  rw [happend, happend, clampedSum_append, clampedSum_append, clampedSum_comm_iff]
  exact Iff.rfl

omit [ByteLike B] in
/-- Two lists of entries leave the same inventory in both orders if and only if
they do so to every item. -/
theorem inventory_comm_iff {g : GameState B F} {entries entries' : List (UInt8 × F)}
    (h : ItemsBelow g.mainPlayer.inventory.length entries)
    (h' : ItemsBelow g.mainPlayer.inventory.length entries') :
    (applyItems (entries ++ entries') g).mainPlayer.inventory =
        (applyItems (entries' ++ entries) g).mainPlayer.inventory ↔
      ∀ item, OrderFree (MainPlayer.countAt g.mainPlayer.inventory item)
        (deltasOf item entries) (deltasOf item entries') := by
  constructor
  · intro heq item
    have hget := getElem?_inventory_applyItems (entries ++ entries') g item.toNat
    rw [heq, getElem?_inventory_applyItems] at hget
    rw [orderFree_iff, MainPlayer.countAt]
    cases hplace : g.mainPlayer.inventory[item.toNat]? with
    | none =>
        -- no entry names an item that does not exist
        have hlen := List.getElem?_eq_none_iff.1 hplace
        have hnone (entry : UInt8 × F)
            (hlt : entry.1.toNat < g.mainPlayer.inventory.length) : entry.1.toNat ≠ item.toNat :=
          Nat.ne_of_lt (hlt.trans_le hlen)
        rw [changesAt_eq_nil, changesAt_eq_nil]
        · refine List.forall_mem_append.2 ⟨?_, ?_⟩
          · exact fun e he => hnone e (h' e he)
          · exact fun e he => hnone e (h e he)
        · refine List.forall_mem_append.2 ⟨?_, ?_⟩
          · exact fun e he => hnone e (h e he)
          · exact fun e he => hnone e (h' e he)
    | some recorded =>
        rw [hplace] at hget
        simpa using hget.symm
  · intro hfree
    apply List.ext_getElem?
    intro k
    rw [getElem?_inventory_applyItems, getElem?_inventory_applyItems]
    cases hplace : g.mainPlayer.inventory[k]? with
    | none => exact rfl
    | some recorded =>
        have hsame : clampedSum recorded.2 (changesAt k (entries ++ entries')) =
            clampedSum recorded.2 (changesAt k (entries' ++ entries)) := by
          by_cases hk : k < 256
          · have hitem : (UInt8.ofNat k).toNat = k := by
              rw [UInt8.toNat_ofNat', Nat.mod_eq_of_lt hk]
            have hone := hfree (UInt8.ofNat k)
            rw [orderFree_iff, MainPlayer.countAt, hitem, hplace] at hone
            exact hone
          · -- a place behind those that an item can have
            have hnone (entry : UInt8 × F) : entry.1.toNat ≠ k :=
              Nat.ne_of_lt (entry.1.toNat_lt.trans_le (Nat.le_of_not_lt hk))
            rw [changesAt_eq_nil fun e _ => hnone e, changesAt_eq_nil fun e _ => hnone e]
        rw [Option.map_some, Option.map_some, hsame]

omit [IsOrderedAddMonoid F] in
theorem receiveItems_pair {g : GameState B F} {q q' : List B}
    (h : ItemsBelow g.mainPlayer.inventory.length (wholeItems F q))
    (h' : ItemsBelow g.mainPlayer.inventory.length (wholeItems F q')) :
    receiveItems [q, q'] g = applyItems (wholeItems F q ++ wholeItems F q') g := by
  have hsecond : ItemsBelow (applyItems (wholeItems F q) g).mainPlayer.inventory.length
      (wholeItems F q') := by
    rw [length_inventory_applyItems]
    exact h'
  unfold receiveItems
  rw [List.foldl_cons, List.foldl_cons, List.foldl_nil, gameAfter_readProcessInventory h,
    gameAfter_readProcessInventory hsecond]
  exact List.foldl_append.symm

/-- Two messages commute exactly if the clamp makes no difference for any item. -/
theorem messages_commute_iff {g : GameState B F} (hitems : 56 ≤ g.mainPlayer.inventory.length)
    {q q' : List B} (h : ItemsBelow 56 (wholeItems F q)) (h' : ItemsBelow 56 (wholeItems F q')) :
    SameItems (receiveItems [q, q'] g) (receiveItems [q', q] g) ↔
      ∀ item, OrderFree (MainPlayer.countAt g.mainPlayer.inventory item)
        (deltasOf item (wholeItems F q)) (deltasOf item (wholeItems F q')) := by
  have hlt : ItemsBelow g.mainPlayer.inventory.length (wholeItems F q) :=
    fun e he => (h e he).trans_le hitems
  have hlt' : ItemsBelow g.mainPlayer.inventory.length (wholeItems F q') :=
    fun e he => (h' e he).trans_le hitems
  rw [receiveItems_pair hlt hlt', receiveItems_pair hlt' hlt]
  constructor
  · intro hsame
    exact (inventory_comm_iff hlt hlt').1 hsame.inventory
  · intro hfree
    refine ⟨(inventory_comm_iff hlt hlt').2 hfree, ?_⟩
    intro item
    have hone := (orderFree_iff _ _ _ _).1 (hfree item)
    rw [changesAt_toNat, changesAt_toNat] at hone
    have hnone : deltasOf item (wholeItems F q ++ wholeItems F q') = [] ↔
        deltasOf item (wholeItems F q' ++ wholeItems F q) = [] := by
      simp [deltasOf, and_comm]
    rw [currentCount_applyItems _ (List.forall_mem_append.2 ⟨hlt, hlt'⟩),
      currentCount_applyItems _ (List.forall_mem_append.2 ⟨hlt', hlt⟩), hone]
    simp only [ne_eq, hnone]

/-- A message with one change of item 0. -/
def oneChange (change : ℤ) : List (Cell ℤ) :=
  FixedWidth.encode (1 : UInt32) ++ entryBytes ((0 : UInt8), change)

theorem wholeItems_oneChange (change : ℤ) : wholeItems ℤ (oneChange change) = [(0, change)] := by
  have hwhole : blockLength .inventory (oneChange change) ≤ (oneChange change).length :=
    Nat.le_of_eq rfl
  rw [wholeItems, if_pos hwhole]
  exact rfl

theorem itemsBelow_oneChange (change : ℤ) : ItemsBelow 56 (wholeItems ℤ (oneChange change)) := by
  intro entry hentry
  rw [wholeItems_oneChange, List.mem_singleton] at hentry
  have hzero : (0 : UInt8).toNat < 56 := by decide
  rw [hentry]
  exact hzero

/-- Of five pieces two are taken away and one is brought. -/
theorem messages_commute_shelf :
    SameItems (receiveItems [oneChange 1, oneChange (-2)] shelfClient)
      (receiveItems [oneChange (-2), oneChange 1] shelfClient) := by
  refine (messages_commute_iff (by decide) (itemsBelow_oneChange 1)
    (itemsBelow_oneChange (-2))).2 ?_
  intro item
  rw [wholeItems_oneChange, wholeItems_oneChange]
  by_cases hitem : 0 = item
  · subst hitem
    decide
  · simp [deltasOf, hitem, OrderFree]

/-- Of five pieces seven are taken away: the one that is brought is lost if it
comes first. -/
theorem orders_differ :
    ¬ ∀ (g : GameState (Cell ℤ) ℤ) (q q' : List (Cell ℤ)), 56 ≤ g.mainPlayer.inventory.length →
      ItemsBelow 56 (wholeItems ℤ q) → ItemsBelow 56 (wholeItems ℤ q') →
      SameItems (receiveItems [q, q'] g) (receiveItems [q', q] g) := by
  intro hall
  have hsame := hall shelfClient (oneChange 1) (oneChange (-7)) (by decide)
    (itemsBelow_oneChange 1) (itemsBelow_oneChange (-7))
  have hcount := hsame.counts 0
  revert hcount
  decide

end HobbitSynchrony
