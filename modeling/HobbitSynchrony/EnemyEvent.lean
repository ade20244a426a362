import HobbitSynchrony.EventBlock

/-! # Enemies events

What `writeEnemiesEvent` writes and what `readProcessEnemiesHealth` makes of
it.

* `reportedChanges`, `writeEnemies_block`: the writer's loop, with the size byte;
* `writeEnemiesEvent_message`: the event for any number of changes;
* `writeEnemiesEvent_eq`: the event names the enemies whose health differs from
  the recorded one, each with the difference, and all healths are recorded;
* `applyEnemies`, `readProcessEnemiesHealth_of_parse`: the reader applies the entries
  one by one.
-/

namespace HobbitSynchrony

open AddressSpace

variable {B F : Type} [ByteLike B] [FixedWidth B F 4]

/-! ## Writing -/

/-- The health in memory of the enemy at an address. -/
def currentHealth [Zero F] (process : HobbitProcessAnalyzer B) (addrs : UInt32) : F :=
  process.readData F (healthAddress addrs)

section loop

variable [Zero F] [Sub F] [BEq F]

/-- The changes that the writer's loop reports: the enemies whose health in memory
is not the recorded one. -/
def reportedChanges (process : HobbitProcessAnalyzer B) (enemies : List (UInt32 × F)) :
    List (UInt64 × F) :=
  (enemies.filter fun e => e.2 != currentHealth process e.1).map fun e =>
    (process.objGUID e.1, currentHealth process e.1 - e.2)

/-- What is recorded of an enemy when the loop has come by. -/
def recordHealth (process : HobbitProcessAnalyzer B) (e : UInt32 × F) : UInt32 × F :=
  if e.2 != currentHealth process e.1 then (e.1, currentHealth process e.1) else e

/-- The loop appends an entry for every reported change, and adds its length to
the size byte. -/
theorem MainPlayer.writeEnemies_block (process : HobbitProcessAnalyzer B)
    (enemies : List (UInt32 × F)) (label : B) (size : UInt8) (entries : List B)
    (enemisSend : UInt32) :
    writeEnemies process enemies (eventBlock label (ByteLike.ofByte size) 0 entries) enemisSend =
      (eventBlock label
          (ByteLike.ofByte (size + UInt8.ofNat (12 * (reportedChanges process enemies).length))) 0
          (entries ++ (reportedChanges process enemies).flatMap entryBytes),
        enemisSend + UInt32.ofNat (reportedChanges process enemies).length,
        enemies.map (recordHealth process)) := by
  induction enemies generalizing size entries enemisSend with
  | nil => simp [writeEnemies, reportedChanges]
  | cons e enemies ih =>
      have hhealth : process.readData F (healthAddress e.1) = currentHealth process e.1 := rfl
      by_cases hchanged : (e.2 != currentHealth process e.1) = true
      · have htake : reportedChanges process (e :: enemies) =
            (process.objGUID e.1, currentHealth process e.1 - e.2) ::
              reportedChanges process enemies := by
          simp [reportedChanges, hchanged]
        have hentry : entryBytes
              (process.objGUID e.1, currentHealth process e.1 - e.2) =
            (FixedWidth.encode (process.objGUID e.1) ++
              FixedWidth.encode (currentHealth process e.1 - e.2) : List B) := rfl
        have hsize (k : ℕ) : size + 8 + 4 + UInt8.ofNat (12 * k) =
            size + UInt8.ofNat (12 * (k + 1)) := by
          rw [Nat.mul_succ, UInt8.ofNat_add, UInt8.add_comm (UInt8.ofNat (12 * k)),
            UInt8.add_assoc, UInt8.add_assoc, ← UInt8.add_assoc 8 4]
          exact rfl
        -- the entry is behind the others, and the loop goes on
        rw [writeEnemies]
        dsimp only
        rw [hhealth, if_pos hchanged, pushTypeToVector_eventBlock, addSize_eventBlock,
          ByteLike.toByte_ofByte, pushTypeToVector_eventBlock, addSize_eventBlock,
          ByteLike.toByte_ofByte, List.append_assoc entries, ← hentry, ih, htake,
          List.flatMap_cons, List.append_assoc, List.length_cons, List.map_cons, count_succ,
          hsize, recordHealth, if_pos hchanged]
      · have hskip : reportedChanges process (e :: enemies) = reportedChanges process enemies := by
          simp [reportedChanges, hchanged]
        rw [writeEnemies]
        dsimp only
        rw [hhealth, if_neg hchanged, ih, hskip, List.map_cons, recordHealth, if_neg hchanged]

/-- The message of `writeEnemiesEvent`: the size byte and the count are cut to
their lowest bytes, and without a count there is no message. -/
theorem MainPlayer.writeEnemiesEvent_message (process : HobbitProcessAnalyzer B)
    (player : MainPlayer F) :
    (writeEnemiesEvent process player).1.message =
      if UInt32.ofNat (reportedChanges process player.enemies).length = 0 then []
      else eventBlock (ByteLike.ofByte DataLabel.enemiesHealth.toByte)
        (ByteLike.ofByte
          (UInt8.ofNat (4 + 12 * (reportedChanges process player.enemies).length)))
        ((reportedChanges process player.enemies).length % 256)
        ((reportedChanges process player.enemies).flatMap entryBytes) := by
  have hloop := writeEnemies_block process player.enemies
    (ByteLike.ofByte DataLabel.enemiesHealth.toByte : B) 4 [] 0
  have hlow : (UInt32.ofNat (reportedChanges process player.enemies).length).toNat % 256 =
      (reportedChanges process player.enemies).length % 256 := by
    rw [UInt32.toNat_ofNat']
    omega
  rw [← blockHead_eq, List.nil_append, UInt32.zero_add] at hloop
  unfold writeEnemiesEvent
  rw [hloop]
  dsimp only
  by_cases hzero : UInt32.ofNat (reportedChanges process player.enemies).length = 0
  · rw [if_pos hzero, hzero]
    exact rfl
  · have hsent : 0 < UInt32.ofNat (reportedChanges process player.enemies).length :=
      UInt32.pos_iff_ne_zero.2 hzero
    rw [if_neg hzero, if_pos hsent, setCount_eventBlock, hlow, UInt8.ofNat_add]
    exact rfl

end loop

section writing

variable [AddCommGroup F] [DecidableEq F]

namespace MainPlayer

/-- The loop appends an entry for every changed enemy and records all healths. -/
theorem writeEnemies_eq (process : HobbitProcessAnalyzer B) (enemies : List (UInt32 × F))
    (label : B) (size : UInt8) (entries : List B) (enemisSend : UInt32) :
    ∃ size', writeEnemies process enemies (eventBlock label (ByteLike.ofByte size) 0 entries)
        enemisSend =
      (eventBlock label size' 0 (entries ++ (reportedChanges process enemies).flatMap entryBytes),
        enemisSend + UInt32.ofNat (reportedChanges process enemies).length,
        enemies.map fun e => (e.1, currentHealth process e.1)) := by
  have hrecord : enemies.map (recordHealth process) =
      enemies.map fun e => (e.1, currentHealth process e.1) := by
    apply List.map_congr_left
    intro e _
    unfold recordHealth
    split
    · exact rfl
    next hsame =>
      -- what was recorded is the health in memory
      have heq : e.2 = currentHealth process e.1 := by simpa using hsame
      rw [← heq]
  exact ⟨_, by rw [writeEnemies_block, hrecord]⟩

/-- `writeEnemiesEvent`: no event if no health has changed, else the changed
enemies; all healths are recorded. The count has to fit into the one byte of it
that is set. -/
theorem writeEnemiesEvent_eq (process : HobbitProcessAnalyzer B) (player : MainPlayer F)
    (h : (reportedChanges process player.enemies).length < 256) :
    (writeEnemiesEvent process player).2 = { player with
        enemies := player.enemies.map fun e => (e.1, currentHealth process e.1) } ∧
      IsEvent (ByteLike.ofByte DataLabel.enemiesHealth.toByte) entryBytes
        (reportedChanges process player.enemies) (writeEnemiesEvent process player).1 := by
  rcases writeEnemies_eq process player.enemies
    (ByteLike.ofByte DataLabel.enemiesHealth.toByte : B) 4 [] 0 with ⟨size', hloop⟩
  rw [← blockHead_eq, List.nil_append, UInt32.zero_add] at hloop
  unfold writeEnemiesEvent
  rw [hloop]
  dsimp only
  rw [apply_ite Prod.fst, apply_ite Prod.snd, ite_self]
  exact ⟨rfl, isEvent_setCount h _ _ _⟩

end MainPlayer

end writing

/-! ## Reading -/

section reading

variable [Zero F] [Add F]

/-- The entries of an event, applied one after the other. -/
def applyEnemies (entries : List (UInt64 × F)) (g : GameState B F) : GameState B F :=
  entries.foldl (fun g entry => applyEnemyHealth entry.1 entry.2 g) g

/-- The event of a queue, handled by `readProcessEnemiesHealth`; the label and
the size have been taken off. -/
def processEnemies (payload : List B) (g : GameState B F) : GameState B F :=
  match readProcessEnemiesHealth ⟨payload.drop 2, g⟩ with
  | .ok _ s => s.game
  | .error _ s => s.game

/-- The loop applies the pairs that have a GUID. -/
theorem readEnemies_of_readEntries {n : ℕ} {s s' : Handling B F} {entries : List (UInt64 × F)}
    (h : readEntries UInt64 n s = .ok entries s') (g : GameState B F) :
    readEnemies n ⟨s.gameData, g⟩ =
      .ok () ⟨s'.gameData, applyEnemies (entries.filter fun entry => entry.1 ≠ 0) g⟩ := by
  induction n generalizing s entries s' g with
  | zero =>
      cases h
      exact rfl
  | succ n ih =>
      unfold readEntries at h
      rcases bind_eq_ok h with ⟨guid, t, hguid, h⟩
      rcases bind_eq_ok h with ⟨healthChange, t', hchange, h⟩
      rcases bind_eq_ok h with ⟨rest, t'', hrest, h⟩
      cases h
      rw [readEnemies, bind_ok (convert_any_game hguid g), bind_ok (convert_any_game hchange g)]
      by_cases hzero : guid = 0
      · rw [if_pos hzero, ih hrest g, List.filter_cons_of_neg (by simpa using hzero)]
      · rw [if_neg hzero, List.filter_cons_of_pos (by simpa using hzero)]
        exact ih hrest (applyEnemyHealth guid healthChange g)

/-- `readProcessEnemiesHealth` applies the parsed pairs that have a GUID, in
order. -/
theorem readProcessEnemiesHealth_of_parse {s s' : Handling B F} {entries : List (UInt64 × F)}
    (h : parseEntries UInt64 s = .ok entries s') :
    readProcessEnemiesHealth s =
      .ok () ⟨s'.gameData, applyEnemies (entries.filter fun entry => entry.1 ≠ 0) s.game⟩ := by
  rcases bind_eq_ok h with ⟨number, t, hnumber, hread⟩
  have hany := convert_any_game hnumber s.game
  rw [readProcessEnemiesHealth, bind_ok hany]
  exact readEnemies_of_readEntries hread s.game

/-- `readProcessEnemiesHealth` applies the entries that follow the count. -/
theorem readProcessEnemiesHealth_flatMap (entries : List (UInt64 × F))
    (hlt : entries.length < 2 ^ 32) (hguid : ∀ entry ∈ entries, entry.1 ≠ 0) (g : GameState B F) :
    readProcessEnemiesHealth
        ⟨FixedWidth.encode (UInt32.ofNat entries.length) ++ entries.flatMap entryBytes, g⟩ =
      .ok () ⟨[], applyEnemies entries g⟩ := by
  have hall : entries.filter (fun entry => entry.1 ≠ 0) = entries :=
    List.filter_eq_self.2 fun entry hentry => decide_eq_true (hguid entry hentry)
  rw [readProcessEnemiesHealth_of_parse (parseEntries_flatMap hlt g), hall]

theorem processEnemies_eventBlock (label size : B) (entries : List (UInt64 × F))
    (hlt : entries.length < 2 ^ 32) (hguid : ∀ entry ∈ entries, entry.1 ≠ 0) (g : GameState B F) :
    processEnemies (eventBlock label size entries.length (entries.flatMap entryBytes)) g =
      applyEnemies entries g := by
  rw [processEnemies, eventBlock, List.drop_succ_cons, List.drop_succ_cons, List.drop_zero,
    readProcessEnemiesHealth_flatMap entries hlt hguid]

/-- `readGameMessage` does the same with the event, if the label is enabled. -/
theorem readGameMessage_enemies [LT F] [DecidableLT F] {states : LabelStates}
    (enabled : states.processLabel .enemiesHealth = true) (senderID : UInt8) (size : B)
    (entries : List (UInt64 × F)) (hlt : entries.length < 2 ^ 32)
    (hguid : ∀ entry ∈ entries, entry.1 ≠ 0) (g : GameState B F) :
    readGameMessage states senderID
        ⟨eventBlock (ByteLike.ofByte DataLabel.enemiesHealth.toByte) size entries.length
          (entries.flatMap entryBytes), g⟩ =
      .ok () ⟨[], applyEnemies entries g⟩ := by
  have hlabel : DataLabel.ofByte (ByteLike.toByte
      (ByteLike.ofByte DataLabel.enemiesHealth.toByte : B)) = .enemiesHealth := by
    rw [ByteLike.toByte_ofByte]
    rfl
  exact readGameMessage_eventBlock hlabel enabled
    (readProcessEnemiesHealth_flatMap entries hlt hguid g)

end reading

end HobbitSynchrony
