import HobbitSynchrony.EnemyDeltas
import HobbitSynchrony.MessageOrder
import HobbitSynchrony.RepeatedReports

/-! # Changes that come back

A change that is received is put into the game's memory and recorded as well, so
that the next report does not send it back. The reports compare with `!=`, and
what is not a number differs from itself; such a health or count is sent back at
every report.

* `Pair`, `applyPair`: the changes of messages, one by one;
* `InStep`: what is recorded is what is in memory;
* `Quiet`: neither report has anything to send;
* `step`, `Meets`: whole messages, and those that make every health and count a
  number;
* `no_echo`: after messages that do, nothing is sent back;
* `nan_echoed`: a change that is.
-/

namespace HobbitSynchrony

open AddressSpace HobbitProcessAnalyzer Transition

variable {B F : Type} [ByteLike B] [FixedWidth B F 4] [Zero F] [Add F] [BEq F] [LT F]
  [DecidableLT F]

namespace NoEcho

/-! ## The changes of a message -/

/-- A change that a message names. -/
inductive Pair (F : Type) where
  | enemy (guid : UInt64) (healthChange : F)
  | item (item : UInt8) (change : F)

/-- What a change does. -/
def applyPair (g : GameState B F) : Pair F → GameState B F
  | .enemy guid healthChange => applyEntry g (guid, healthChange)
  | .item item change => gameAfter (applyInventory item change ⟨[], g⟩)

/-- A message, the queue behind label and size. -/
inductive Message (B : Type) where
  | enemies (q : List B)
  | inventory (q : List B)

variable (F) in
/-- The changes of a message. -/
def Message.pairs : Message B → List (Pair F)
  | enemies q => (wholeEnemies F q).map fun entry => .enemy entry.1 entry.2
  | inventory q => (wholeItems F q).map fun entry => .item entry.1 entry.2

/-- The handlers; an inventory message names items below 56. -/
def stepFn (g : GameState B F) : Message B → Option (GameState B F)
  | .enemies q => some (gameAfter (readProcessEnemiesHealth ⟨q, g⟩))
  | .inventory q =>
    if (wholeItems F q).all fun entry => entry.1 < 56 then
      some (gameAfter (readProcessInventory ⟨q, g⟩))
    else none

def step : GameState B F → Message B → GameState B F → Prop := ofFn stepFn

/-! ## Nothing to send -/

/-- Neither report has anything to send. -/
def Quiet [Sub F] (g : GameState B F) : Prop :=
  (MainPlayer.writeEnemiesEvent g.process g.mainPlayer).1 = BaseMessage.empty B ∧
    (MainPlayer.writeInventoryEvent g.process g.mainPlayer).1 = BaseMessage.empty B

/-- The healths of the enemies overlap neither each other nor the counts. -/
structure HealthsApart (g : GameState B F) : Prop where
  healths : (g.mainPlayer.enemies.map Prod.fst).Pairwise
    fun a b => Apart (healthAddress a) 4 (healthAddress b) 4
  items : ∀ a ∈ g.mainPlayer.enemies.map Prod.fst, ∀ i : UInt8, i < 56 →
    Apart (healthAddress a) 4 (itemAddress i) 4

/-- What the reports compare is what is recorded; from item 53 on a count that is
not below the recorded one is not reported. -/
structure InStep (g : GameState B F) : Prop where
  isProcessSet : g.process.isProcessSet
  length : 56 ≤ g.mainPlayer.inventory.length
  apart : HealthsApart g
  enemies : ∀ e ∈ g.mainPlayer.enemies,
    (e.2 == g.process.readData F (healthAddress e.1)) = true
  items : ∀ i ∈ visitedItems, i < 53 →
    (MainPlayer.countAt g.mainPlayer.inventory i == (currentCount g.process i : F)) = true
  scrolls : ∀ i ∈ visitedItems, 53 ≤ i →
    ¬ currentCount g.process i < MainPlayer.countAt g.mainPlayer.inventory i

omit [Add F] [LT F] [DecidableLT F] in
/-- Without a reported change an enemies event is empty. -/
theorem writeEnemiesEvent_eq_empty [Sub F] {process : HobbitProcessAnalyzer B}
    {player : MainPlayer F} (h : reportedChanges process player.enemies = []) :
    (MainPlayer.writeEnemiesEvent process player).1 = BaseMessage.empty B := by
  have hloop := MainPlayer.writeEnemies_block process player.enemies
    (ByteLike.ofByte DataLabel.enemiesHealth.toByte : B) 4 [] 0
  rw [← MainPlayer.blockHead_eq, h] at hloop
  unfold MainPlayer.writeEnemiesEvent
  rw [hloop]
  exact rfl

omit [Add F] in
theorem InStep.quiet [Sub F] {g : GameState B F} (h : InStep g) : Quiet g := by
  constructor
  · apply writeEnemiesEvent_eq_empty
    rw [reportedChanges, List.map_eq_nil_iff, List.filter_eq_nil_iff]
    intro e he
    have hsame : (e.2 == currentHealth g.process e.1) = true := h.enemies e he
    rw [bne, hsame]
    exact Bool.false_ne_true
  · rw [MainPlayer.writeInventoryEvent_eq_empty_iff]
    intro i hi
    rw [Bool.eq_false_iff]
    intro hreports
    have hsame : i < 53 → ¬ (MainPlayer.countAt g.mainPlayer.inventory i !=
        (currentCount g.process i : F)) = true := by
      intro hlt
      rw [bne, h.items i hi hlt]
      exact Bool.false_ne_true
    by_cases hseven : i = 7
    · subst hseven
      exact hsame (by decide) ((MainPlayer.reports_seven_iff _ _).1 hreports).1
    · rcases ((MainPlayer.reports_iff_of_ne _ _ hseven).1 hreports).1 with
        ⟨hlt, hdiffers⟩ | ⟨hge, hdropped⟩
      · exact hsame hlt hdiffers
      · exact h.scrolls i hi hge hdropped

/-! ## One change -/

/-- A change that is recorded makes a number of the health or the count it is
for; the items that are not compared with `!=` do not matter. -/
def RecordsNumber (g : GameState B F) : Pair F → Prop
  | .enemy guid healthChange =>
    guid ≠ 0 → g.process.findGameObjByGUID guid ≠ 0 →
    (∃ e ∈ g.mainPlayer.enemies, g.process.objGUID e.1 = guid) →
      let health : F := g.process.readData F (healthAddress (g.process.findGameObjByGUID guid))
      (health + healthChange == health + healthChange) = true
  | .item item change =>
    item ∈ visitedItems → item < 53 →
      let count := changedCount (MainPlayer.countAt g.mainPlayer.inventory item) change
      (count == count) = true

omit [BEq F] [LT F] [DecidableLT F] in
/-- An entry of an enemies message changes nothing, or the health of a listed
enemy with the GUID, in memory and recorded. -/
theorem applyEntry_cases (g : GameState B F) (guid : UInt64) (healthChange : F) :
    applyEntry g (guid, healthChange) = g ∨
      guid ≠ 0 ∧ g.process.findGameObjByGUID guid ≠ 0 ∧
      ∃ k e, g.mainPlayer.enemies[k]? = some e ∧ g.process.objGUID e.1 = guid ∧
        let health : F :=
          g.process.readData F (healthAddress (g.process.findGameObjByGUID guid)) + healthChange
        applyEntry g (guid, healthChange) = { g with
          mainPlayer := { g.mainPlayer with
            enemies := g.mainPlayer.enemies.set k (e.1, health) }
          process := g.process.writeData (healthAddress e.1) health } := by
  unfold applyEntry applyEnemyHealth
  by_cases hguid : guid = 0
  · exact .inl (if_pos hguid)
  · rw [if_neg hguid]
    by_cases hobj : g.process.findGameObjByGUID guid = 0
    · exact .inl (if_neg (not_not.2 hobj))
    · simp only [if_pos hobj]
      cases hfind : g.mainPlayer.enemies.findIdx? fun e => g.process.objGUID e.1 == guid with
      | none => exact .inl rfl
      | some k =>
          rcases List.findIdx?_eq_some_iff_getElem.1 hfind with ⟨hk, hmatch, -⟩
          have hget := List.getElem?_eq_getElem hk
          refine .inr ⟨hguid, hobj, k, g.mainPlayer.enemies[k], hget, beq_iff_eq.1 hmatch, ?_⟩
          simp only [hget]

omit [ByteLike B] [FixedWidth B F 4] [Zero F] [Add F] [BEq F] [LT F] [DecidableLT F] in
theorem HealthsApart.of_ne {g : GameState B F} (h : HealthsApart g) {j k : ℕ}
    {e e' : UInt32 × F} (hj : g.mainPlayer.enemies[j]? = some e)
    (hk : g.mainPlayer.enemies[k]? = some e') (hne : j ≠ k) :
    Apart (healthAddress e.1) 4 (healthAddress e'.1) 4 := by
  rcases List.getElem?_eq_some_iff.1 hj with ⟨hjlt, rfl⟩
  rcases List.getElem?_eq_some_iff.1 hk with ⟨hklt, rfl⟩
  have hall := List.pairwise_iff_getElem.1 h.healths
  simp only [List.length_map, List.getElem_map] at hall
  rcases Nat.lt_or_gt_of_ne hne with hlt | hlt
  · exact hall j k hjlt hklt hlt
  · exact (hall k j hklt hjlt hlt).symm

omit [ByteLike B] [FixedWidth B F 4] [Zero F] [Add F] [BEq F] [LT F] [DecidableLT F] in
/-- Recording another health leaves the addresses as they are. -/
theorem map_fst_set {enemies : List (UInt32 × F)} {k : ℕ} {e : UInt32 × F}
    (h : enemies[k]? = some e) (health : F) :
    (enemies.set k (e.1, health)).map Prod.fst = enemies.map Prod.fst := by
  rcases List.getElem?_eq_some_iff.1 h with ⟨hk, rfl⟩
  rw [List.map_set]
  have hk' : k < (enemies.map Prod.fst).length := by simpa using hk
  have hsame := List.set_getElem_self hk'
  rwa [List.getElem_map] at hsame

/-- An enemy that is hurt from outside. -/
theorem InStep.enemy {g : GameState B F} (h : InStep g) {guid : UInt64}
    {healthChange : F} (hnumber : RecordsNumber g (.enemy guid healthChange)) :
    InStep (applyPair g (.enemy guid healthChange)) := by
  rw [applyPair]
  rcases applyEntry_cases g guid healthChange with
    hsame | ⟨hguid, hobj, k, e, hget, hmatch, happly⟩
  · rw [hsame]
    exact h
  · have hself := hnumber hguid hobj ⟨e, List.mem_of_getElem? hget, hmatch⟩
    dsimp only at hself happly
    rw [happly]
    generalize (g.process.readData F (healthAddress (g.process.findGameObjByGUID guid)) : F) +
      healthChange = health at hself ⊢
    have hmem : e.1 ∈ g.mainPlayer.enemies.map Prod.fst :=
      List.mem_map_of_mem (List.mem_of_getElem? hget)
    -- the counts lie elsewhere
    have hcount (i : UInt8) (hi : i ∈ visitedItems) :
        (currentCount (g.process.writeData (healthAddress e.1) health) i : F) =
          currentCount g.process i :=
      readData_writeData_of_apart
        (h.apart.items _ hmem i (not_jumpedOver_of_mem_visitedItems hi).1)
    have haddresses := map_fst_set hget health
    constructor
    · rw [isProcessSet_writeData]
      exact h.isProcessSet
    · exact h.length
    · constructor
      · dsimp only
        rw [haddresses]
        exact h.apart.healths
      · dsimp only
        rw [haddresses]
        exact h.apart.items
    · intro e' he'
      rcases List.mem_iff_getElem?.1 he' with ⟨j, hj⟩
      dsimp only at hj ⊢
      rw [List.getElem?_set] at hj
      by_cases hjk : k = j
      · -- the enemy itself
        subst hjk
        have hlt := (List.getElem?_eq_some_iff.1 hget).1
        rw [if_pos rfl, if_pos hlt] at hj
        obtain rfl := Option.some.inj hj
        dsimp only
        rwa [readData_writeData _ _ _ h.isProcessSet (by norm_num)]
      · rw [if_neg hjk] at hj
        rw [readData_writeData_of_apart (h.apart.of_ne hget hj hjk)]
        exact h.enemies e' (List.mem_of_getElem? hj)
    · intro i hi hlt
      dsimp only
      rw [hcount i hi]
      exact h.items i hi hlt
    · intro i hi hge
      dsimp only
      rw [hcount i hi]
      exact h.scrolls i hi hge

omit [ByteLike B] [FixedWidth B F 4] [Add F] [BEq F] [LT F] [DecidableLT F] in
theorem countAt_set {inventory : List (UInt8 × F)} {i : UInt8} (h : i.toNat < inventory.length)
    (entry : UInt8 × F) (j : UInt8) :
    MainPlayer.countAt (inventory.set i.toNat entry) j =
      if j = i then entry.2 else MainPlayer.countAt inventory j := by
  unfold MainPlayer.countAt
  rw [List.getElem?_set]
  by_cases hj : j = i
  · subst hj
    rw [if_pos rfl, if_pos rfl, if_pos h]
  · rw [if_neg hj, if_neg fun heq => hj (UInt8.toNat_inj.1 heq).symm]

omit [BEq F] in
/-- The count of an item that is changed is put into memory and recorded. -/
theorem applyPair_item {g : GameState B F} {item : UInt8}
    (hitem : item.toNat < g.mainPlayer.inventory.length) (change : F) :
    ∃ entry : UInt8 × F,
      entry.2 = changedCount (MainPlayer.countAt g.mainPlayer.inventory item) change ∧
      applyPair g (.item item change) = { g with
        mainPlayer := { g.mainPlayer with
          inventory := g.mainPlayer.inventory.set item.toNat entry }
        process := g.process.writeData (itemAddress item) entry.2 } := by
  have hget := List.getElem?_eq_getElem hitem
  refine ⟨(g.mainPlayer.inventory[item.toNat].1,
    changedCount g.mainPlayer.inventory[item.toNat].2 change), ?_, ?_⟩
  · rw [MainPlayer.countAt, hget]
  · rw [applyPair, applyInventory]
    dsimp only
    rw [hget]
    exact rfl

/-- An item that is changed from outside. -/
theorem InStep.item [FloatOrder F] {g : GameState B F} (h : InStep g) {item : UInt8}
    (hitem : item < 56) {change : F} (hnumber : RecordsNumber g (.item item change)) :
    InStep (applyPair g (.item item change)) := by
  have hlt : item.toNat < g.mainPlayer.inventory.length :=
    (UInt8.lt_iff_toNat_lt.1 hitem).trans_le h.length
  rcases applyPair_item hlt change with ⟨entry, hentry, happly⟩
  have hself : item ∈ visitedItems → item < 53 → (entry.2 == entry.2) = true := by
    rw [hentry]
    exact hnumber
  rw [happly]
  constructor
  · rw [isProcessSet_writeData]
    exact h.isProcessSet
  · dsimp only
    rw [List.length_set]
    exact h.length
  · exact ⟨h.apart.healths, h.apart.items⟩
  · intro e he
    have hapart := (h.apart.items e.1 (List.mem_map_of_mem he) item hitem).symm
    dsimp only
    rw [readData_writeData_of_apart hapart]
    exact h.enemies e he
  · intro i hi hi53
    dsimp only
    rw [countAt_set hlt, currentCount_write h.isProcessSet]
    by_cases heq : i = item
    · subst heq
      rw [if_pos rfl, if_pos rfl]
      exact hself hi hi53
    · rw [if_neg heq, if_neg heq]
      exact h.items i hi hi53
  · intro i hi hge
    dsimp only
    rw [countAt_set hlt, currentCount_write h.isProcessSet]
    by_cases heq : i = item
    · rw [if_pos heq, if_pos heq]
      exact FloatOrder.lt_irrefl _
    · rw [if_neg heq, if_neg heq]
      exact h.scrolls i hi hge

/-! ## Whole messages -/

/-- All changes make numbers, each in the state that those before it leave. -/
def RecordsNumbers : List (Pair F) → GameState B F → Prop
  | [], _ => True
  | pair :: pairs, g => RecordsNumber g pair ∧ RecordsNumbers pairs (applyPair g pair)

/-- The message makes a number of every health and count that it changes. -/
def Meets (g : GameState B F) (m : Message B) : Prop := RecordsNumbers (m.pairs F) g

/-- The item of a change is below 56. -/
def Pair.Below : Pair F → Prop
  | .enemy _ _ => True
  | .item i _ => i < 56

theorem InStep.pairs [FloatOrder F] {g : GameState B F} (h : InStep g) {pairs : List (Pair F)}
    (hbelow : ∀ pair ∈ pairs, pair.Below) (hnumbers : RecordsNumbers pairs g) :
    InStep (pairs.foldl applyPair g) := by
  induction pairs generalizing g with
  | nil => exact h
  | cons pair pairs ih =>
      rcases hnumbers with ⟨hfirst, hrest⟩
      refine ih ?_ (fun pair hpair => hbelow pair (List.mem_cons_of_mem _ hpair)) hrest
      cases pair with
      | enemy guid healthChange => exact h.enemy hfirst
      | item item change => exact h.item (hbelow _ List.mem_cons_self) hfirst

omit [BEq F] in
/-- The second loop of an inventory message. -/
theorem gameAfter_applyInventories {entries : List (UInt8 × F)} {g : GameState B F}
    (h : ItemsBelow g.mainPlayer.inventory.length entries) (q : List B) :
    gameAfter (applyInventories entries ⟨q, g⟩) =
      entries.foldl (fun g entry => applyPair g (.item entry.1 entry.2)) g := by
  induction entries generalizing g with
  | nil => exact rfl
  | cons entry entries ih =>
      have hitem := h entry List.mem_cons_self
      rcases applyPair_item hitem entry.2 with ⟨recorded, -, happly⟩
      have hrun : applyInventory entry.1 entry.2 ⟨q, g⟩ =
          .ok () ⟨q, applyPair g (.item entry.1 entry.2)⟩ := by
        have hget := List.getElem?_eq_getElem hitem
        rw [applyPair]
        unfold applyInventory
        dsimp only
        rw [hget]
        exact rfl
      have hrest : ItemsBelow
          (applyPair g (.item entry.1 entry.2)).mainPlayer.inventory.length entries := by
        rw [happly]
        dsimp only
        rw [List.length_set]
        exact fun e he => h e (List.mem_cons_of_mem entry he)
      rw [applyInventories, bind_ok hrun, List.foldl_cons]
      exact ih hrest

omit [BEq F] in
/-- A message is processed as its changes, one after the other. -/
theorem step_pairs {g g' : GameState B F} {m : Message B}
    (hlen : 56 ≤ g.mainPlayer.inventory.length) (h : step g m g') :
    (∀ pair ∈ m.pairs F, pair.Below) ∧ g' = (m.pairs F).foldl applyPair g := by
  cases m with
  | enemies q =>
      cases h
      constructor
      · intro pair hpair
        rcases List.mem_map.1 hpair with ⟨entry, -, rfl⟩
        trivial
      · rw [Message.pairs, List.foldl_map, gameAfter_readProcessEnemiesHealth]
        exact rfl
  | inventory q =>
      have hstep : (if (wholeItems F q).all fun entry => entry.1 < 56 then
          some (gameAfter (readProcessInventory ⟨q, g⟩)) else none) = some g' := h
      rw [Option.ite_none_right_eq_some, List.all_eq_true] at hstep
      rcases hstep with ⟨hitems, hgame⟩
      have hbelow (entry : UInt8 × F) (hentry : entry ∈ wholeItems F q) : entry.1 < 56 :=
        of_decide_eq_true (hitems entry hentry)
      have hplaces : ItemsBelow g.mainPlayer.inventory.length (wholeItems F q) :=
        fun entry hentry => (UInt8.lt_iff_toNat_lt.1 (hbelow entry hentry)).trans_le hlen
      obtain rfl := Option.some.inj hgame
      constructor
      · intro pair hpair
        rcases List.mem_map.1 hpair with ⟨entry, hentry, rfl⟩
        exact hbelow entry hentry
      · rw [Message.pairs, List.foldl_map]
        unfold wholeItems at hplaces ⊢
        by_cases hwhole : blockLength .inventory q ≤ q.length
        · rw [if_pos hwhole] at hplaces ⊢
          rw [readProcessInventory_complete hwhole, gameAfter_applyInventories hplaces]
        · rw [if_neg hwhole]
          exact readProcessInventory_short (Nat.lt_of_not_le hwhole) g

/-- Everything is recorded as it is in memory, where the healths overlap neither
each other nor the counts. -/
structure Recorded (g : GameState B F) : Prop where
  isProcessSet : g.process.isProcessSet
  length : 56 ≤ g.mainPlayer.inventory.length
  apart : HealthsApart g
  enemies : ∀ e ∈ g.mainPlayer.enemies,
    (e.2 == g.process.readData F (healthAddress e.1)) = true
  items : ∀ i : UInt8, i < 56 →
    (MainPlayer.countAt g.mainPlayer.inventory i == (currentCount g.process i : F)) = true

variable [FloatOrder F]

omit [ByteLike B] [Add F] [DecidableLT F] in
theorem Recorded.inStep {g : GameState B F} (h : Recorded g) : InStep g where
  isProcessSet := h.isProcessSet
  length := h.length
  apart := h.apart
  enemies := h.enemies
  items := fun i hi _ => h.items i (not_jumpedOver_of_mem_visitedItems hi).1
  scrolls := fun i hi _ =>
    FloatOrder.not_lt_of_beq (h.items i (not_jumpedOver_of_mem_visitedItems hi).1)

theorem inStep_run {g₀ g : GameState B F} (h₀ : Recorded g₀) {messages : List (Message B)}
    (h : Run (Guarded step Meets) g₀ messages g) : InStep g := by
  refine h.invariant ?_ h₀.inStep
  rintro g m g' ⟨hstep, hmeets⟩ hg
  rcases step_pairs hg.length hstep with ⟨hbelow, rfl⟩
  exact hg.pairs hbelow hmeets

/-- After messages that make every health and count a number, in any order,
neither report has anything to send. -/
theorem no_echo [Sub F] {g₀ g : GameState B F} (h₀ : Recorded g₀) {messages : List (Message B)}
    (h : Run (Guarded step Meets) g₀ messages g) : Quiet g :=
  (inStep_run h₀ h).quiet

/-! ## Exact numbers -/

omit [FloatOrder F] in
theorem recordsNumbers_of_reflBEq [ReflBEq F] (pairs : List (Pair F))
    (g : GameState B F) : RecordsNumbers pairs g := by
  induction pairs generalizing g with
  | nil => trivial
  | cons pair pairs ih =>
      refine ⟨?_, ih (applyPair g pair)⟩
      cases pair with
      | enemy guid healthChange =>
          intro _ _ _
          exact BEq.rfl
      | item item change =>
          intro _ _
          exact BEq.rfl

/-- Where every value is the same as itself, nothing is ever sent back. -/
theorem quiet_of_reflBEq [Sub F] [ReflBEq F] {g₀ g : GameState B F} (h₀ : Recorded g₀)
    {messages : List (Message B)} (h : Run step g₀ messages g) : Quiet g :=
  (inStep_run h₀ (h.guarded fun m _ g => recordsNumbers_of_reflBEq (m.pairs F) g)).quiet

omit [Add F] [BEq F] [LT F] [DecidableLT F] [FloatOrder F] in
/-- `readPtrs` records the counts as they are. -/
theorem countAt_fresh (process : HobbitProcessAnalyzer B) {i : UInt8} (hi : i < 56) :
    MainPlayer.countAt (GameState.fresh process : GameState B F).mainPlayer.inventory i =
      currentCount process i := by
  have hlt : i.toNat < 56 := UInt8.lt_iff_toNat_lt.1 hi
  have hitem : UInt8.ofNat i.toNat = i := UInt8.ofNat_toNat
  unfold GameState.fresh MainPlayer.readPtrs MainPlayer.countAt
  dsimp only
  rw [List.nil_append, List.getElem?_map, List.getElem?_range hlt, Option.map_some, hitem]
  exact rfl

/-- The game of `arena` is recorded as it is. -/
theorem recorded_arenaClient : Recorded arenaClient where
  isProcessSet := rfl
  length := by decide
  apart := by
    have haddrs : arenaClient.mainPlayer.enemies.map Prod.fst = [0x2000] := by decide
    constructor
    · rw [haddrs]
      exact List.pairwise_singleton _ _
    · rw [haddrs]
      intro a ha i hi
      obtain rfl := List.mem_singleton.1 ha
      have hitem := toNat_itemAddress i
      have hi' := UInt8.lt_iff_toNat_lt.1 hi
      have haddress : (healthAddress 0x2000).toNat = 0x2290 := by decide
      have hlast : (56 : UInt8).toNat = 56 := rfl
      exact apart_of_le (by omega) (by omega)
  enemies := by decide
  items := by
    intro i hi
    exact beq_iff_eq.2 (countAt_fresh arena hi)

/-- A hit and a piece of item 0 from somebody else. -/
theorem no_echo_arena : ∃ g : GameState (Cell ℤ) ℤ,
    Run step arenaClient (arenaMessages.map .enemies ++ [.inventory (oneChange 1)]) g ∧
      Quiet g := by
  have hrun : Run step arenaClient
      (arenaMessages.map .enemies ++ [.inventory (oneChange 1)]) _ :=
    run_of_exec (Option.some_get (by decide)).symm
  exact ⟨_, hrun, no_echo recorded_arenaClient
    (hrun.guarded fun m _ g => recordsNumbers_of_reflBEq (m.pairs ℤ) g)⟩

/-! ## Not a number -/

/-- A client in a game whose memory is zero. -/
def nanClient : GameState (Cell (WithNaN ℤ)) (WithNaN ℤ) :=
  GameState.fresh
    { isProcessSet := true, memory := fun _ => .byte 0, objectStackAddress := 0,
      objectStackSize := 0 }

theorem recorded_nanClient : Recorded nanClient where
  isProcessSet := rfl
  length := by decide
  apart := ⟨List.Pairwise.nil, fun a ha => absurd ha List.not_mem_nil⟩
  enemies := fun e he => absurd he List.not_mem_nil
  items := by
    intro i hi
    rw [nanClient, countAt_fresh _ hi]
    exact rfl

/-- A message with a change of item 0 that is not a number. -/
def nanChange : List (Cell (WithNaN ℤ)) :=
  FixedWidth.encode (1 : UInt32) ++ entryBytes ((0 : UInt8), (WithNaN.nan : WithNaN ℤ))

/-- The count of item 0 is not a number from then on, and is sent back. -/
theorem nan_echoed :
    ¬ ∀ (g₀ g : GameState (Cell (WithNaN ℤ)) (WithNaN ℤ)) messages, Recorded g₀ →
      Run step g₀ messages g → Quiet g := by
  intro hall
  have hrun : Run step nanClient [.inventory nanChange] _ :=
    run_of_exec (Option.some_get (by decide)).symm
  have hquiet := (hall nanClient _ _ recorded_nanClient hrun).2
  rw [MainPlayer.writeInventoryEvent_eq_empty_iff] at hquiet
  have hzero := hquiet 0 (by decide)
  revert hzero
  decide

end NoEcho

end HobbitSynchrony
