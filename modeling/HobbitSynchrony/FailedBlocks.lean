import HobbitSynchrony.EventParsing

/-! # Blocks that cannot be parsed

What a handler has done when it throws. A snapshot is put into its slot field by
field, and the enemies of an event are hurt while the others are still to be
read, so a payload that ends too early has been applied up to there. Only the
inventory is read whole first, but an item that does not exist is noticed when
its turn comes.

* `ReadsOnly`: handlers that leave the game alone, however they end;
* `Merges`: a payload whose handler makes two clients the same;
* `ThrowsEarly`: the payloads whose handler does nothing before it throws;
* `keptOnError_iff`: on exactly these a block that cannot be parsed changes
  nothing.
-/

namespace HobbitSynchrony

open AddressSpace HobbitProcessAnalyzer

variable {B F : Type}

/-! ## Handlers that only read -/

/-- The game that a handler leaves, however it ends. -/
def gameAfter {α : Type} : EStateM.Result GameError (Handling B F) α → GameState B F
  | .ok _ s => s.game
  | .error _ s => s.game

/-- The handler does nothing but take bytes off the queue. -/
def ReadsOnly {α : Type} (x : Handler B F α) : Prop := ∀ s, gameAfter (x s) = s.game

theorem readsOnly_pure {α : Type} (a : α) : ReadsOnly (pure a : Handler B F α) := fun _ => rfl

theorem readsOnly_convert (T : Type) {n : ℕ} [FixedWidth B T n] :
    ReadsOnly (convert T : Handler B F T) := by
  intro s
  by_cases h : n ≤ s.gameData.length
  · rw [convert_ok h]
    exact rfl
  · rw [convert_error (Nat.lt_of_not_le h)]
    exact rfl

theorem ReadsOnly.bind {α β : Type} {x : Handler B F α} {f : α → Handler B F β}
    (hx : ReadsOnly x) (hf : ∀ a, ReadsOnly (f a)) : ReadsOnly (x >>= f) := by
  intro s
  have hgame := hx s
  cases hrun : x s with
  | ok a t =>
      rw [hrun] at hgame
      rw [bind_ok hrun, hf a t]
      exact hgame
  | error e t =>
      rw [hrun] at hgame
      rw [bind_error hrun]
      exact hgame

variable [ByteLike B] [FixedWidth B F 4]

omit [ByteLike B] in
/-- The loop that reads pairs. -/
theorem readsOnly_readEntries (K : Type) {k : ℕ} [FixedWidth B K k] (n : ℕ) :
    ReadsOnly (readEntries K n : Handler B F _) := by
  induction n with
  | zero => exact readsOnly_pure []
  | succ n ih =>
      exact (readsOnly_convert K).bind fun key => (readsOnly_convert F).bind fun change =>
        ih.bind fun rest => readsOnly_pure _

/-! ## The entries of an enemies event -/

variable (F) in
/-- The entries of an enemies event that are there with all their bytes. -/
def wholeEnemies (q : List B) : List (UInt64 × F) :=
  entriesOf UInt64 F (min (FixedWidth.decode (q.take 4) : UInt32).toNat ((q.length - 4) / 12))
    (q.drop 4)

/-- The first entry is among them as soon as it has its bytes. -/
theorem entriesOf_whole {q : List B} (h : 12 ≤ q.length) (n : ℕ) :
    entriesOf UInt64 F (min (n + 1) (q.length / 12)) q =
      (FixedWidth.decode (q.take 8), FixedWidth.decode ((q.drop 8).take 4)) ::
        entriesOf UInt64 F (min n ((q.drop 12).length / 12)) (q.drop 12) := by
  have hcount : min (n + 1) (q.length / 12) = min n ((q.drop 12).length / 12) + 1 := by
    rw [List.length_drop]
    omega
  rw [hcount, entriesOf]

section enemies

variable [Zero F] [Add F]

/-- One turn of the loop of `readProcessEnemiesHealth`. -/
theorem readEnemies_turn {q : List B} (h : 12 ≤ q.length) (n : ℕ) (g : GameState B F) :
    readEnemies (n + 1) ⟨q, g⟩ =
      readEnemies n ⟨q.drop 12,
        if (FixedWidth.decode (q.take 8) : UInt64) = 0 then g
        else applyEnemyHealth (FixedWidth.decode (q.take 8))
          (FixedWidth.decode ((q.drop 8).take 4)) g⟩ := by
  have hguid : 8 ≤ (⟨q, g⟩ : Handling B F).gameData.length := by
    dsimp only
    omega
  have hchange : 4 ≤ (⟨q.drop 8, g⟩ : Handling B F).gameData.length := by
    dsimp only
    rw [List.length_drop]
    omega
  rw [readEnemies, bind_ok (convert_ok hguid), bind_ok (convert_ok hchange)]
  dsimp only
  rw [List.drop_drop]
  split
  · exact rfl
  · exact rfl

/-- An entry that is cut off is not applied. -/
theorem readEnemies_short {q : List B} (h : q.length < 12) (n : ℕ) (g : GameState B F) :
    ∃ e s, readEnemies (n + 1) ⟨q, g⟩ = .error e s ∧ s.game = g := by
  by_cases hguid : 8 ≤ q.length
  · have hchange : (⟨q.drop 8, g⟩ : Handling B F).gameData.length < 4 := by
      dsimp only
      rw [List.length_drop]
      omega
    refine ⟨.notEnoughElements, ⟨q.drop 8, g⟩, ?_, rfl⟩
    rw [readEnemies, bind_ok (convert_ok (s := ⟨q, g⟩) hguid)]
    exact bind_error (convert_error hchange)
  · have hshort : (⟨q, g⟩ : Handling B F).gameData.length < 8 := Nat.lt_of_not_le hguid
    exact ⟨.notEnoughElements, ⟨q, g⟩, bind_error (convert_error hshort), rfl⟩

/-- Entries without a GUID change nothing. -/
theorem readEnemies_noGUID {n : ℕ} {q : List B}
    (h : ∀ entry ∈ entriesOf UInt64 F (min n (q.length / 12)) q, entry.1 = 0) (g : GameState B F) :
    gameAfter (readEnemies n ⟨q, g⟩) = g := by
  induction n generalizing q with
  | zero => exact rfl
  | succ n ih =>
      by_cases hlen : 12 ≤ q.length
      · rw [entriesOf_whole hlen] at h
        have hzero : (FixedWidth.decode (q.take 8) : UInt64) = 0 := h _ List.mem_cons_self
        rw [readEnemies_turn hlen, if_pos hzero]
        exact ih fun entry hentry => h entry (List.mem_cons_of_mem _ hentry)
      · rcases readEnemies_short (Nat.lt_of_not_le hlen) n g with ⟨e, s, herr, hgame⟩
        rw [herr]
        exact hgame

/-- An enemies event of which no entry with a GUID is there. -/
theorem readProcessEnemiesHealth_noGUID {q : List B}
    (h : ∀ entry ∈ wholeEnemies F q, entry.1 = 0) (g : GameState B F) :
    gameAfter (readProcessEnemiesHealth ⟨q, g⟩) = g := by
  by_cases hcount : 4 ≤ q.length
  · unfold wholeEnemies at h
    rw [← List.length_drop] at h
    rw [readProcessEnemiesHealth, bind_ok (convert_ok (s := ⟨q, g⟩) hcount)]
    exact readEnemies_noGUID h g
  · have hshort : (⟨q, g⟩ : Handling B F).gameData.length < 4 := Nat.lt_of_not_le hcount
    rw [readProcessEnemiesHealth, bind_error (convert_error hshort)]
    exact rfl

/-! ## What a handler forgets -/

/-- A client that lists these enemies, and has recorded 0 for this many items. -/
def GameState.holding (process : HobbitProcessAnalyzer B) (enemies : List (UInt32 × F))
    (items : ℕ) : GameState B F :=
  { GameState.fresh process with
    mainPlayer := { level := 0, enemies := enemies, inventory := List.replicate items (0, 0) } }

/-- A game with two objects that have the same GUID; only the first is on the
object stack. -/
def twinProcess (guid : UInt64) : HobbitProcessAnalyzer B where
  isProcessSet := true
  memory := write (write (write (fun _ => ByteLike.ofByte 0) 0x1000 (0x2000 : UInt32))
    (0x2000 + 0x8) guid) (0x4000 + 0x8) guid
  objectStackAddress := 0x1000
  objectStackSize := 1

/-- Two clients with `items` items that the handler makes the same. -/
def Merges (items : ℕ) (x : Handler B F Unit) (q : List B) : Prop :=
  ∃ g₁ g₂ : GameState B F, g₁ ≠ g₂ ∧ g₁.mainPlayer.inventory.length = items ∧
    g₂.mainPlayer.inventory.length = items ∧ x ⟨q, g₁⟩ = x ⟨q, g₂⟩

omit [ByteLike B] [FixedWidth B F 4] [Zero F] [Add F] in
/-- A handler that makes two clients the same cannot leave both as they were. -/
theorem Merges.changes {items : ℕ} {x : Handler B F Unit} {q : List B} (h : Merges items x q) :
    ∃ g : GameState B F, g.mainPlayer.inventory.length = items ∧ gameAfter (x ⟨q, g⟩) ≠ g := by
  rcases h with ⟨g₁, g₂, hne, hlen₁, hlen₂, heq⟩
  by_cases hkept : gameAfter (x ⟨q, g₁⟩) = g₁
  · refine ⟨g₂, hlen₂, ?_⟩
    rw [← heq, hkept]
    exact hne
  · exact ⟨g₁, hlen₁, hkept⟩

/-! ### Snapshots -/

/-- The level that the player in a slot is on. -/
def GameState.withHostLevel (slot : Fin 7) (hostLevel : UInt8) (g : GameState B F) :
    GameState B F :=
  { g with
    connectedPlayers := fun i =>
      if i = slot then { g.connectedPlayers i with hostLevel := hostLevel }
      else g.connectedPlayers i }

omit [ByteLike B] [FixedWidth B F 4] [Zero F] [Add F] in
theorem slotOf_withHostLevel (slot : Fin 7) (hostLevel : UInt8) (g : GameState B F)
    (senderID : UInt8) : slotOf (g.withHostLevel slot hostLevel) senderID = slotOf g senderID := by
  have hids : ∀ i, ((g.withHostLevel slot hostLevel).connectedPlayers i).id =
      (g.connectedPlayers i).id := by
    intro i
    unfold GameState.withHostLevel
    dsimp only
    split <;> exact rfl
  unfold slotOf
  simp only [hids]

omit [ByteLike B] [FixedWidth B F 4] [Zero F] [Add F] in
theorem withHostLevel_injective {slot : Fin 7} {x y : UInt8} {g : GameState B F}
    (h : g.withHostLevel slot x = g.withHostLevel slot y) : x = y := by
  have hslot := congrArg (fun g' : GameState B F => (g'.connectedPlayers slot).hostLevel) h
  simpa [GameState.withHostLevel] using hslot

omit [ByteLike B] [FixedWidth B F 4] [Zero F] [Add F] in
theorem withHostLevel_withHostLevel (slot : Fin 7) (x y : UInt8) (g : GameState B F) :
    (g.withHostLevel slot x).withHostLevel slot y = g.withHostLevel slot y := by
  unfold GameState.withHostLevel
  dsimp only
  congr
  funext i
  by_cases hi : i = slot
  · simp only [if_pos hi]
  · simp only [if_neg hi]

omit [Zero F] [Add F] in
/-- The first byte of a snapshot is put over the old level. -/
theorem readConectedPlayerSnap_withHostLevel (slot : Fin 7) (b : B) (rest : List B) (x : UInt8)
    (g : GameState B F) :
    readConectedPlayerSnap slot ⟨b :: rest, g.withHostLevel slot x⟩ =
      readConectedPlayerSnap slot ⟨b :: rest, g.withHostLevel slot 0⟩ := by
  have hfirst (x : UInt8) :
      readField slot UInt8 (fun p v => { p with hostLevel := v })
          ⟨b :: rest, g.withHostLevel slot x⟩ =
        .ok () ⟨rest, g.withHostLevel slot (ByteLike.toByte b)⟩ := by
    have hlen : 1 ≤ (⟨b :: rest, g.withHostLevel slot x⟩ : Handling B F).gameData.length :=
      Nat.succ_le_succ (Nat.zero_le _)
    unfold readField
    rw [bind_ok (convert_ok hlen)]
    have hput : (g.withHostLevel slot x).withHostLevel slot (ByteLike.toByte b) =
        g.withHostLevel slot (ByteLike.toByte b) := withHostLevel_withHostLevel slot x _ g
    rw [← hput]
    exact rfl
  unfold readConectedPlayerSnap
  rw [bind_ok (hfirst x), bind_ok (hfirst 0)]

/-- A snapshot of which something is there. -/
theorem merges_snapshot [LT F] [DecidableLT F] (senderID : UInt8) (items : ℕ) {q : List B}
    (h : q ≠ []) :
    Merges items (handleLabel senderID .connectedPlayerSnap : Handler B F Unit) q := by
  rcases List.exists_cons_of_ne_nil h with ⟨b, rest, rfl⟩
  let g : GameState B F := .holding (twinProcess 0) [] items
  let slot := slotOf g senderID
  refine ⟨g.withHostLevel slot 1, g.withHostLevel slot 0, ?_, List.length_replicate,
    List.length_replicate, ?_⟩
  · intro heq
    exact absurd (withHostLevel_injective heq) (by decide)
  · unfold handleLabel
    dsimp only
    rw [slotOf_withHostLevel, slotOf_withHostLevel]
    exact readConectedPlayerSnap_withHostLevel slot b rest 1 g

/-! ### Level changes -/

/-- Bilbo has this level. -/
def GameState.withLevel (level : UInt32) (g : GameState B F) : GameState B F :=
  { g with mainPlayer := { g.mainPlayer with level := level } }

omit [FixedWidth B F 4] [Zero F] [Add F] in
/-- The level is put over the old one. -/
theorem readConectedPlayerLevel_withLevel {q : List B} (h : 4 ≤ q.length) (g : GameState B F) :
    readConectedPlayerLevel ⟨q, g⟩ =
      onQueue popQueue ⟨q.drop 4, g.withLevel (FixedWidth.decode (q.take 4))⟩ := by
  have hlevel : 4 ≤ (⟨q, g⟩ : Handling B F).gameData.length := h
  have hset : (if g.mainPlayer.level ≠ FixedWidth.decode (q.take 4)
      then g.withLevel (FixedWidth.decode (q.take 4)) else g) =
        g.withLevel (FixedWidth.decode (q.take 4)) := by
    split
    · exact rfl
    next hsame =>
      rw [← not_not.1 hsame]
      exact rfl
  unfold readConectedPlayerLevel
  rw [bind_ok (convert_ok hlevel), ← hset]
  exact rfl

/-- A level change with all bytes of the level. -/
theorem merges_level [LT F] [DecidableLT F] (senderID : UInt8) (items : ℕ) {q : List B}
    (h : 4 ≤ q.length) :
    Merges items (handleLabel senderID .connectedPlayerLevel : Handler B F Unit) q := by
  let g : GameState B F := .holding (twinProcess 0) [] items
  refine ⟨g.withLevel 1, g.withLevel 0, ?_, List.length_replicate, List.length_replicate, ?_⟩
  · intro heq
    have hlevel : (1 : UInt32) = 0 := congrArg (fun g' : GameState B F => g'.mainPlayer.level) heq
    exact absurd hlevel (by decide)
  · unfold handleLabel
    dsimp only
    rw [readConectedPlayerLevel_withLevel h, readConectedPlayerLevel_withLevel h]
    exact rfl

/-! ### Enemies -/

omit [FixedWidth B F 4] [Zero F] [Add F] in
theorem slots_twinProcess (guid : UInt64) :
    (twinProcess guid : HobbitProcessAnalyzer B).slots = [0x1000] := by
  have hone : (((1 : UInt32) * objectPtrSize).toNat + 19) / 20 = 1 := by decide
  unfold slots twinProcess
  dsimp only
  rw [hone]
  exact rfl

omit [FixedWidth B F 4] [Zero F] [Add F] in
theorem objAddrs_twinProcess (guid : UInt64) :
    (twinProcess guid : HobbitProcessAnalyzer B).objAddrs 0x1000 = 0x2000 := by
  have hset : (twinProcess guid : HobbitProcessAnalyzer B).isProcessSet = true := rfl
  unfold objAddrs readData
  rw [if_pos hset]
  unfold twinProcess
  dsimp only
  rw [read_write_of_apart (Apart.symm (apart_of_le (by decide) (by decide))),
    read_write_of_apart (Apart.symm (apart_of_le (by decide) (by decide))),
    read_write _ _ _ (by decide)]

omit [FixedWidth B F 4] [Zero F] [Add F] in
theorem objGUID_twinProcess (guid : UInt64) :
    (twinProcess guid : HobbitProcessAnalyzer B).objGUID 0x2000 = guid ∧
      (twinProcess guid : HobbitProcessAnalyzer B).objGUID 0x4000 = guid := by
  have hset : (twinProcess guid : HobbitProcessAnalyzer B).isProcessSet = true := rfl
  unfold objGUID readData
  rw [if_pos hset, if_pos hset]
  unfold twinProcess
  dsimp only
  constructor
  · rw [read_write_of_apart (Apart.symm (apart_of_le (by decide) (by decide))),
      read_write _ _ _ (by decide)]
  · rw [read_write _ _ _ (by decide)]

omit [Zero F] [Add F] in
/-- The health of the second object is neither a slot nor a GUID. -/
theorem twinProcess_writeData (guid : UInt64) {T : Type} [FixedWidth B T 4] (x : T) :
    ((twinProcess guid : HobbitProcessAnalyzer B).writeData (healthAddress 0x4000)
        x).findGameObjByGUID guid = 0x2000 ∧
      ((twinProcess guid : HobbitProcessAnalyzer B).writeData (healthAddress 0x4000)
        x).objGUID 0x4000 = guid := by
  constructor
  · rw [findGameObjByGUID_writeData]
    · have hset : (twinProcess guid : HobbitProcessAnalyzer B).isProcessSet = true := rfl
      unfold findGameObjByGUID
      rw [slots_twinProcess, hset]
      simp [objAddrs_twinProcess, objGUID_twinProcess]
    · intro slot hslot
      rw [slots_twinProcess, List.mem_singleton] at hslot
      subst hslot
      exact Apart.symm (apart_of_le (by decide) (by decide))
    · intro slot hslot
      rw [slots_twinProcess, List.mem_singleton] at hslot
      subst hslot
      rw [objAddrs_twinProcess]
      exact Apart.symm (apart_of_le (by decide) (by decide))
  · have hapart : Apart (healthAddress 0x4000) 4 (0x4000 + 0x8) 8 :=
      Apart.symm (apart_of_le (by decide) (by decide))
    rw [objGUID, readData_writeData_of_apart hapart]
    exact (objGUID_twinProcess guid).2

/-- The only listed enemy has the GUID. -/
theorem applyEnemyHealth_single {g : GameState B F} {guid : UInt64} {object enemy : UInt32}
    {v : F} (hfound : g.process.findGameObjByGUID guid = object) (hobject : object ≠ 0)
    (henemies : g.mainPlayer.enemies = [(enemy, v)]) (hguid : g.process.objGUID enemy = guid)
    (change : F) :
    applyEnemyHealth guid change g =
      { g with
        mainPlayer := { g.mainPlayer with
          enemies := [(enemy, g.process.readData F (healthAddress object) + change)] }
        process := g.process.writeData (healthAddress enemy)
          (g.process.readData F (healthAddress object) + change) } := by
  have hfirst : [(enemy, v)].findIdx? (fun e => g.process.objGUID e.1 == guid) = some 0 := by
    rw [List.findIdx?_cons, if_pos (beq_iff_eq.2 hguid)]
  unfold applyEnemyHealth
  dsimp only
  rw [hfound, if_pos hobject, henemies, hfirst]
  exact rfl

/-- The change is added to the health of the first object, and put over the
health of the second. -/
theorem applyEnemyHealth_twinProcess (guid : UInt64) (change : F) (items : ℕ) :
    ∃ health : F, ∀ x : UInt32, applyEnemyHealth guid change
        (.holding ((twinProcess guid).writeData (healthAddress 0x4000) x) [(0x4000, 0)] items) =
      (GameState.holding ((twinProcess guid).writeData (healthAddress 0x4000) health)
        [(0x4000, health)] items : GameState B F) := by
  refine ⟨(twinProcess guid : HobbitProcessAnalyzer B).readData F (healthAddress 0x2000) + change,
    ?_⟩
  intro x
  rcases twinProcess_writeData (B := B) guid x with ⟨hfound, hguid⟩
  have hhealth : ((twinProcess guid : HobbitProcessAnalyzer B).writeData (healthAddress 0x4000)
      x).readData F (healthAddress 0x2000) =
        (twinProcess guid : HobbitProcessAnalyzer B).readData F (healthAddress 0x2000) :=
    readData_writeData_of_apart (Apart.symm (apart_of_le (by decide) (by decide)))
  let g : GameState B F :=
    .holding ((twinProcess guid).writeData (healthAddress 0x4000) x) [(0x4000, 0)] items
  have happly := applyEnemyHealth_single (g := g) hfound (by decide) rfl hguid change
  have hprocess : g.process = (twinProcess guid).writeData (healthAddress 0x4000) x := rfl
  rw [hprocess, hhealth, writeData_writeData] at happly
  exact happly

/-- An enemies event of which an entry with a GUID is there. -/
theorem merges_readEnemies (items : ℕ) {n : ℕ} {q : List B}
    (h : ∃ entry ∈ entriesOf UInt64 F (min n (q.length / 12)) q, entry.1 ≠ 0) :
    Merges items (readEnemies n : Handler B F Unit) q := by
  induction n generalizing q with
  | zero =>
      rw [Nat.zero_min] at h
      rcases h with ⟨entry, hentry, -⟩
      cases hentry
  | succ n ih =>
      have hlen : 12 ≤ q.length := by
        by_contra hshort
        have hnone : q.length / 12 = 0 := Nat.div_eq_of_lt (Nat.lt_of_not_le hshort)
        rw [hnone, Nat.min_zero] at h
        rcases h with ⟨entry, hentry, -⟩
        cases hentry
      rw [entriesOf_whole hlen] at h
      by_cases hzero : (FixedWidth.decode (q.take 8) : UInt64) = 0
      · -- the entry is passed over, so a later one has a GUID
        rcases h with ⟨entry, hentry, hguid⟩
        rcases List.mem_cons.1 hentry with rfl | hrest
        · exact absurd hzero hguid
        · rcases ih ⟨entry, hrest, hguid⟩ with ⟨g₁, g₂, hne, hlen₁, hlen₂, heq⟩
          refine ⟨g₁, g₂, hne, hlen₁, hlen₂, ?_⟩
          rw [readEnemies_turn hlen, readEnemies_turn hlen, if_pos hzero, if_pos hzero]
          exact heq
      · let guid : UInt64 := FixedWidth.decode (q.take 8)
        let change : F := FixedWidth.decode ((q.drop 8).take 4)
        rcases applyEnemyHealth_twinProcess (B := B) guid change items with ⟨health, happly⟩
        let g (x : UInt32) : GameState B F :=
          .holding ((twinProcess guid).writeData (healthAddress 0x4000) x) [(0x4000, 0)] items
        refine ⟨g 1, g 0, ?_, List.length_replicate, List.length_replicate, ?_⟩
        · intro heq
          have hprocess : (twinProcess guid : HobbitProcessAnalyzer B).writeData
              (healthAddress 0x4000) (1 : UInt32) =
                (twinProcess guid).writeData (healthAddress 0x4000) (0 : UInt32) :=
            congrArg GameState.process heq
          exact absurd (writeData_injective rfl (by decide) _ hprocess) (by decide)
        · rw [readEnemies_turn hlen, readEnemies_turn hlen, if_neg hzero, if_neg hzero]
          have hsame : applyEnemyHealth guid change (g 1) = applyEnemyHealth guid change (g 0) :=
            (happly 1).trans (happly 0).symm
          rw [hsame]

theorem merges_enemies [LT F] [DecidableLT F] (senderID : UInt8) (items : ℕ) {q : List B}
    (h : ∃ entry ∈ wholeEnemies F q, entry.1 ≠ 0) :
    Merges items (handleLabel senderID .enemiesHealth : Handler B F Unit) q := by
  have hcount : 4 ≤ q.length := by
    by_contra hshort
    have hnone : (q.length - 4) / 12 = 0 := by omega
    unfold wholeEnemies at h
    rw [hnone, Nat.min_zero] at h
    rcases h with ⟨entry, hentry, -⟩
    cases hentry
  have hrun (g : GameState B F) : readProcessEnemiesHealth ⟨q, g⟩ =
      readEnemies (FixedWidth.decode (q.take 4) : UInt32).toNat ⟨q.drop 4, g⟩ := by
    rw [readProcessEnemiesHealth, bind_ok (convert_ok (s := ⟨q, g⟩) hcount)]
  unfold wholeEnemies at h
  rw [← List.length_drop] at h
  rcases merges_readEnemies items h with ⟨g₁, g₂, hne, hlen₁, hlen₂, heq⟩
  refine ⟨g₁, g₂, hne, hlen₁, hlen₂, ?_⟩
  unfold handleLabel
  dsimp only
  rw [hrun, hrun]
  exact heq

/-! ### Inventories -/

end enemies

section inventory

variable (F) in
/-- The entries of an inventory event. -/
def namedItems (q : List B) : List (UInt8 × F) :=
  entriesOf UInt8 F (FixedWidth.decode (q.take 4) : UInt32).toNat (q.drop 4)

variable [Zero F] [Add F] [LT F] [DecidableLT F]

/-- All entries are read before the first is applied. -/
theorem readProcessInventory_complete {q : List B} (h : blockLength .inventory q ≤ q.length)
    (g : GameState B F) :
    readProcessInventory ⟨q, g⟩ =
      applyInventories (namedItems F q) ⟨q.drop (blockLength .inventory q), g⟩ := by
  unfold blockLength at h ⊢
  dsimp only at h ⊢
  have hcount : 4 ≤ (⟨q, g⟩ : Handling B F).gameData.length := by
    dsimp only
    omega
  have hread := readEntries_ok (F := F) UInt8 (FixedWidth.decode (q.take 4) : UInt32).toNat
    ⟨q.drop 4, g⟩ (by rw [List.length_drop]; omega)
  rw [readProcessInventory, bind_ok (convert_ok hcount), bind_ok hread, List.drop_drop]
  exact rfl

/-- An event that is cut off is not applied. -/
theorem readProcessInventory_short {q : List B}
    (h : q.length < blockLength .inventory q) (g : GameState B F) :
    gameAfter (readProcessInventory ⟨q, g⟩) = g := by
  by_cases hcount : 4 ≤ q.length
  · unfold blockLength at h
    dsimp only at h
    have hentries : (⟨q.drop 4, g⟩ : Handling B F).gameData.length <
        5 * (FixedWidth.decode (q.take 4) : UInt32).toNat := by
      dsimp only
      rw [List.length_drop]
      omega
    rcases readEntries_error (F := F) UInt8 _ _ hentries with ⟨e, s, herr⟩
    have hgame := readsOnly_readEntries (F := F) UInt8
      (FixedWidth.decode (q.take 4) : UInt32).toNat ⟨q.drop 4, g⟩
    rw [herr] at hgame
    rw [readProcessInventory, bind_ok (convert_ok (s := ⟨q, g⟩) hcount)]
    dsimp only
    rw [bind_error herr]
    exact hgame
  · have hshort : (⟨q, g⟩ : Handling B F).gameData.length < 4 := Nat.lt_of_not_le hcount
    rw [readProcessInventory, bind_error (convert_error hshort)]
    exact rfl

/-- The first item does not exist. -/
theorem readProcessInventory_unknown {q : List B} (h : blockLength .inventory q ≤ q.length)
    {g : GameState B F} (hnamed : namedItems F q ≠ [])
    (hfirst : ∀ entry ∈ (namedItems F q).head?, g.mainPlayer.inventory.length ≤ entry.1.toNat) :
    gameAfter (readProcessInventory ⟨q, g⟩) = g := by
  rcases List.exists_cons_of_ne_nil hnamed with ⟨⟨item, change⟩, rest, hentries⟩
  rw [hentries] at hfirst
  have hitem : g.mainPlayer.inventory[item.toNat]? = none :=
    List.getElem?_eq_none (hfirst _ rfl)
  have hrun : applyInventory item change ⟨q.drop (blockLength .inventory q), g⟩ =
      .error .outOfRange ⟨q.drop (blockLength .inventory q), g⟩ := by
    rw [applyInventory, hitem]
  rw [readProcessInventory_complete h, hentries, applyInventories, bind_error hrun]
  exact rfl

/-- The new count is put over the one in the game's memory. -/
theorem applyInventory_writeData {items : ℕ} {item : UInt8} (h : item.toNat < items) (change : F)
    (p : HobbitProcessAnalyzer B) (q : List B) :
    ∃ g : GameState B F, ∀ x : UInt32,
      applyInventory item change ⟨q, .holding (p.writeData (itemAddress item) x) [] items⟩ =
        .ok () ⟨q, g⟩ := by
  have hentry : (List.replicate items ((0 : UInt8), (0 : F)))[item.toNat]? = some (0, 0) := by
    rw [List.getElem?_replicate, if_pos h]
  let count : F := changedCount 0 change
  let player : MainPlayer F :=
    { level := 0
      enemies := []
      inventory := (List.replicate items (0, 0)).set item.toNat (0, count) }
  refine ⟨{ GameState.holding (p.writeData (itemAddress item) count) [] items with
    mainPlayer := player }, ?_⟩
  intro x
  unfold applyInventory GameState.holding
  dsimp only
  rw [hentry]
  dsimp only
  have hwrite : (p.writeData (itemAddress item) x).writeData (itemAddress item) count =
      p.writeData (itemAddress item) count := writeData_writeData _ _ _ _
  rw [← hwrite]
  exact rfl

/-- A complete inventory event whose first item exists. -/
theorem merges_inventory (senderID : UInt8) {items : ℕ} {q : List B}
    (h : blockLength .inventory q ≤ q.length)
    (hfirst : ∃ entry ∈ (namedItems F q).head?, entry.1.toNat < items) :
    Merges items (handleLabel senderID .inventory : Handler B F Unit) q := by
  rcases hfirst with ⟨⟨item, change⟩, hhead, hitem⟩
  rcases List.head?_eq_some_iff.1 hhead with ⟨rest, hnamed⟩
  rcases applyInventory_writeData hitem change (twinProcess 0 : HobbitProcessAnalyzer B)
    (q.drop (blockLength .inventory q)) with ⟨g, happly⟩
  have hrun (x : UInt32) : handleLabel senderID .inventory
      (⟨q, .holding ((twinProcess 0).writeData (itemAddress item) x) [] items⟩ : Handling B F) =
        applyInventories rest ⟨q.drop (blockLength .inventory q), g⟩ := by
    unfold handleLabel
    dsimp only
    rw [readProcessInventory_complete h, hnamed, applyInventories, bind_ok (happly x)]
  refine ⟨.holding ((twinProcess 0).writeData (itemAddress item) (1 : UInt32)) [] items,
    .holding ((twinProcess 0).writeData (itemAddress item) (0 : UInt32)) [] items, ?_,
    List.length_replicate, List.length_replicate, (hrun 1).trans (hrun 0).symm⟩
  intro heq
  have hprocess : (twinProcess 0 : HobbitProcessAnalyzer B).writeData (itemAddress item)
      (1 : UInt32) = (twinProcess 0).writeData (itemAddress item) (0 : UInt32) :=
    congrArg GameState.process heq
  exact absurd (writeData_injective rfl (by decide) _ hprocess) (by decide)

end inventory

/-! ## What a failed block leaves -/

section kept

variable [Zero F] [Add F] [LT F] [DecidableLT F]

variable (F) in
/-- If the handler of the label throws, every client with `items` items in its
inventory has the game it had before. -/
def KeptOnError (senderID : UInt8) (items : ℕ) (label : DataLabel) (q : List B) : Prop :=
  ∀ g : GameState B F, g.mainPlayer.inventory.length = items →
    ∀ e s, handleLabel senderID label ⟨q, g⟩ = .error e s → s.game = g

variable (F) in
omit [Zero F] [Add F] [LT F] [DecidableLT F] in
/-- The handler of the label does not throw, or throws before its first change:
the payload is whole, or nothing of a snapshot is there, the level itself is cut
off, no entry of an enemies event that is there has a GUID, an inventory event is
cut off or its first item does not exist. -/
def ThrowsEarly (items : ℕ) (label : DataLabel) (q : List B) : Prop :=
  match label with
  | .connectedPlayerSnap => q = [] ∨ 30 ≤ q.length
  | .connectedPlayerLevel => q.length ≠ 4
  | .enemiesHealth =>
    blockLength .enemiesHealth q ≤ q.length ∨ ∀ entry ∈ wholeEnemies F q, entry.1 = 0
  | .inventory =>
    q.length < blockLength .inventory q ∨ ItemsBelow items (namedItems F q) ∨
      ∀ entry ∈ (namedItems F q).head?, items ≤ entry.1.toNat
  | .server => True
  | .other _ => True

variable {senderID : UInt8} {items : ℕ} {label : DataLabel} {q : List B}

theorem keptOnError_of_gameAfter
    (h : ∀ g : GameState B F, g.mainPlayer.inventory.length = items →
      gameAfter (handleLabel senderID label ⟨q, g⟩) = g) :
    KeptOnError F senderID items label q := by
  intro g hlen e s herr
  have hgame := h g hlen
  rw [herr] at hgame
  exact hgame

/-- A block that is complete does not make its handler throw. -/
theorem keptOnError_of_complete (h : Complete F items label q) :
    KeptOnError F senderID items label q := by
  intro g hlen e s herr
  have hcomplete : Complete F g.mainPlayer.inventory.length label q := by
    rw [hlen]
    exact h
  rcases handleLabel_ok senderID label ⟨q, g⟩ hcomplete with ⟨g', hrun, -⟩
  rw [hrun] at herr
  cases herr

/-- The handler throws, but has changed some client. -/
theorem not_keptOnError (hthrows : ¬ Complete F items label q)
    (hmerges : Merges items (handleLabel senderID label : Handler B F Unit) q) :
    ¬ KeptOnError F senderID items label q := by
  intro hkept
  rcases hmerges.changes with ⟨g, hlen, hchanged⟩
  have hbroken : ¬ Complete F g.mainPlayer.inventory.length label q := by
    rw [hlen]
    exact hthrows
  rcases handleLabel_error senderID label ⟨q, g⟩ hbroken with ⟨e, s, herr⟩
  have hgame := hkept g hlen e s herr
  rw [herr] at hchanged
  exact hchanged hgame

theorem keptOnError_snapshot (senderID : UInt8) (items : ℕ) (q : List B) :
    KeptOnError F senderID items .connectedPlayerSnap q ↔
      ThrowsEarly F items .connectedPlayerSnap q := by
  constructor
  · intro hkept
    by_contra hlate
    unfold ThrowsEarly at hlate
    dsimp only at hlate
    rw [not_or] at hlate
    have hbroken : ¬ Complete F items .connectedPlayerSnap q := fun h => hlate.2 h.1
    exact not_keptOnError hbroken (merges_snapshot senderID items hlate.1) hkept
  · rintro (rfl | hlen)
    · -- the first field is not there
      apply keptOnError_of_gameAfter
      intro g _
      have hshort : (⟨[], g⟩ : Handling B F).gameData.length < 1 := Nat.zero_lt_one
      have hfirst (slot : Fin 7) : readField slot UInt8 (fun p v => { p with hostLevel := v })
          (⟨[], g⟩ : Handling B F) = .error .notEnoughElements ⟨[], g⟩ := by
        unfold readField
        rw [bind_error (convert_error hshort)]
      unfold handleLabel readConectedPlayerSnap
      dsimp only
      rw [bind_error (hfirst _)]
      exact rfl
    · exact keptOnError_of_complete ⟨hlen, fun hinv => by cases hinv⟩

theorem keptOnError_level (senderID : UInt8) (items : ℕ) (q : List B) :
    KeptOnError F senderID items .connectedPlayerLevel q ↔
      ThrowsEarly F items .connectedPlayerLevel q := by
  constructor
  · intro hkept hlen
    refine not_keptOnError (fun h => ?_) (merges_level senderID items (by omega)) hkept
    have hfive : 5 ≤ q.length := h.1
    omega
  · intro hlen
    unfold ThrowsEarly at hlen
    dsimp only at hlen
    rcases Nat.lt_or_gt_of_ne hlen with hshort | hwhole
    · apply keptOnError_of_gameAfter
      intro g _
      have hlevel : (⟨q, g⟩ : Handling B F).gameData.length < 4 := hshort
      unfold handleLabel readConectedPlayerLevel
      dsimp only
      rw [bind_error (convert_error hlevel)]
      exact rfl
    · exact keptOnError_of_complete ⟨hwhole, fun hinv => by cases hinv⟩

theorem keptOnError_enemies (senderID : UInt8) (items : ℕ) (q : List B) :
    KeptOnError F senderID items .enemiesHealth q ↔ ThrowsEarly F items .enemiesHealth q := by
  constructor
  · intro hkept
    by_contra hlate
    unfold ThrowsEarly at hlate
    dsimp only at hlate
    rw [not_or, not_forall] at hlate
    rcases hlate with ⟨hshort, entry, hentry⟩
    rw [Classical.not_imp] at hentry
    exact not_keptOnError (fun h => hshort h.1) (merges_enemies senderID items ⟨entry, hentry⟩)
      hkept
  · rintro (hwhole | hguids)
    · exact keptOnError_of_complete ⟨hwhole, fun hinv => by cases hinv⟩
    · apply keptOnError_of_gameAfter
      intro g _
      exact readProcessEnemiesHealth_noGUID hguids g

theorem keptOnError_inventory (senderID : UInt8) (items : ℕ) (q : List B) :
    KeptOnError F senderID items .inventory q ↔ ThrowsEarly F items .inventory q := by
  constructor
  · intro hkept
    by_contra hlate
    unfold ThrowsEarly at hlate
    dsimp only at hlate
    rw [not_or, not_or, not_forall, Nat.not_lt] at hlate
    rcases hlate with ⟨hwhole, hitems, entry, hentry⟩
    rw [Classical.not_imp, Nat.not_le] at hentry
    exact not_keptOnError (fun h => hitems (h.2 rfl))
      (merges_inventory senderID hwhole ⟨entry, hentry⟩) hkept
  · intro hearly
    by_cases hwhole : blockLength .inventory q ≤ q.length
    · by_cases hitems : ItemsBelow items (namedItems F q)
      · exact keptOnError_of_complete ⟨hwhole, fun _ => hitems⟩
      · have hfirst : ∀ entry ∈ (namedItems F q).head?, items ≤ entry.1.toNat := by
          rcases hearly with hshort | hbelow | hfirst
          · exact absurd hwhole (Nat.not_le.2 hshort)
          · exact absurd hbelow hitems
          · exact hfirst
        have hsome : namedItems F q ≠ [] := by
          intro hnil
          apply hitems
          rw [hnil]
          intro entry hentry
          cases hentry
        apply keptOnError_of_gameAfter
        intro g hlen
        rw [← hlen] at hfirst
        exact readProcessInventory_unknown hwhole hsome hfirst
    · apply keptOnError_of_gameAfter
      intro g _
      exact readProcessInventory_short (Nat.lt_of_not_le hwhole) g

/-- A block that cannot be parsed changes nothing exactly if its handler throws
before it has done anything. -/
theorem keptOnError_iff (senderID : UInt8) (items : ℕ) (label : DataLabel) (q : List B) :
    KeptOnError F senderID items label q ↔ ThrowsEarly F items label q := by
  cases label with
  | connectedPlayerSnap => exact keptOnError_snapshot senderID items q
  | connectedPlayerLevel => exact keptOnError_level senderID items q
  | enemiesHealth => exact keptOnError_enemies senderID items q
  | inventory => exact keptOnError_inventory senderID items q
  | server =>
      refine ⟨fun _ => trivial, fun _ => keptOnError_of_complete ⟨Nat.zero_le _, ?_⟩⟩
      intro hinv
      cases hinv
  | other value =>
      refine ⟨fun _ => trivial, fun _ => keptOnError_of_complete ⟨Nat.zero_le _, ?_⟩⟩
      intro hinv
      cases hinv

end kept

/-- A snapshot that is cut off behind its first byte: the level of the player is
stored. -/
theorem cut_off_snapshot_stored :
    ¬ ∀ (q : List UInt8) (g : GameState UInt8 UInt32) e s,
      handleLabel 5 .connectedPlayerSnap ⟨q, g⟩ = .error e s → s.game = g := by
  intro h
  have hgame := h [1] manyFives .notEnoughElements _ rfl
  have hlevel := congrArg
    (fun g : GameState UInt8 UInt32 => (g.connectedPlayers (slotOf g 5)).hostLevel) hgame
  revert hlevel
  decide

end HobbitSynchrony
