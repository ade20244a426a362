import HobbitSynchrony.EnemyEvent
import HobbitSynchrony.InventoryEvent
import HobbitSynchrony.Snapshot

/-! # Disabled labels

A message whose label is disabled is passed over by its size byte. The writers
of `MainPlayer` add up that byte modulo 256, so it is only right for a message
of less than 256 bytes.

* `sized_writeEnemiesEvent`, `sized_writeInventoryEvent`: the size bytes of the
  two events;
* `SkippedWhole`, `skippedWhole_write`: a message that is passed over, and nothing else;
* `crowd_not_skipped`: events with 21 enemies or more that are not;
* `disabled_labels_iff`: which messages of a turn are, with how many changed enemies.
-/

namespace HobbitSynchrony

open AddressSpace HobbitProcessAnalyzer

variable {B F : Type} [ByteLike B] [FixedWidth B F 4]

/-! ## The size bytes of the events -/

namespace MainPlayer

section loops

variable [Zero F] [Sub F] [BEq F]

omit [FixedWidth B F 4] in
/-- A block has its count and its entries behind the size byte. -/
theorem sized_eventBlock (label : DataLabel) (size : UInt8) (count : ℕ) (entries : List B) :
    Sized label size (4 + entries.length)
      (eventBlock (ByteLike.ofByte label.toByte) (ByteLike.ofByte size) count entries) := by
  refine ⟨_, rfl, ?_⟩
  rw [List.length_append, FixedWidth.length_encode]

/-- An event with the changes of enemies, if it is sent. -/
theorem sized_writeEnemiesEvent (process : HobbitProcessAnalyzer B) (player : MainPlayer F)
    (h : 0 < (writeEnemiesEvent process player).1.message.length) :
    Sized .enemiesHealth (UInt8.ofNat (4 + 12 * (reportedChanges process player.enemies).length))
      (4 + 12 * (reportedChanges process player.enemies).length)
      (writeEnemiesEvent process player).1.message := by
  have hlength : ((reportedChanges process player.enemies).flatMap entryBytes : List B).length =
      12 * (reportedChanges process player.enemies).length := length_flatMap_entryBytes _
  rw [writeEnemiesEvent_message] at h ⊢
  split at h
  · cases h
  next hsent =>
    rw [if_neg hsent, ← hlength]
    exact sized_eventBlock .enemiesHealth _ _ _

/-- The count of the changes wraps, and an event with a count of 0 is not sent. -/
theorem writeEnemiesEvent_wrapped (process : HobbitProcessAnalyzer B) (player : MainPlayer F)
    (h : (reportedChanges process player.enemies).length % 2 ^ 32 = 0) :
    (writeEnemiesEvent process player).1.message = [] := by
  have hcount : UInt32.ofNat (reportedChanges process player.enemies).length = 0 := by
    apply UInt32.toNat_inj.1
    rw [UInt32.toNat_ofNat', h]
    exact rfl
  rw [writeEnemiesEvent_message, if_pos hcount]

variable [LT F] [DecidableLT F]

/-- An event with the changes of the inventory, if it is sent. -/
theorem sized_writeInventoryEvent (process : HobbitProcessAnalyzer B) (player : MainPlayer F)
    (h : 0 < (writeInventoryEvent process player).1.message.length) :
    ∃ len < 256, Sized .inventory (UInt8.ofNat len) len
      (writeInventoryEvent process player).1.message := by
  have hfew := length_reportedItems_le process player.inventory
  have hlength : ((reportedItems process visitedItems player.inventory).flatMap entryBytes :
      List B).length = 5 * (reportedItems process visitedItems player.inventory).length :=
    length_flatMap_entryBytes _
  refine ⟨4 + 5 * (reportedItems process visitedItems player.inventory).length, by omega, ?_⟩
  rw [writeInventoryEvent_message] at h ⊢
  split at h
  · cases h
  next hsent =>
    rw [if_neg hsent, ← hlength]
    exact sized_eventBlock .inventory _ _ _

/-- The messages of a turn. -/
theorem mem_write {process : HobbitProcessAnalyzer B} {ptrs : BilboPtrs} {player : MainPlayer F}
    {msg : BaseMessage B} (h : msg ∈ (write process ptrs player).1) :
    msg = writeSnap (processData process ptrs : Snapshot F) ∨
      msg = (writeEnemiesEvent process player).1 ∧ 0 < msg.message.length ∨
      ∃ player' : MainPlayer F,
        msg = (writeInventoryEvent process player').1 ∧ 0 < msg.message.length := by
  unfold write at h
  dsimp only at h
  rw [List.mem_append, List.mem_append, List.mem_singleton] at h
  rcases h with (h | h) | h
  · exact .inl h
  · split at h
    next hpos =>
      obtain rfl := List.mem_singleton.1 h
      exact .inr (.inl ⟨rfl, hpos⟩)
    next => cases h
  · split at h
    next hpos =>
      obtain rfl := List.mem_singleton.1 h
      exact .inr (.inr ⟨_, rfl, hpos⟩)
    next => cases h

/-- The snapshot is among them. -/
theorem writeSnap_mem_write (process : HobbitProcessAnalyzer B) (ptrs : BilboPtrs)
    (player : MainPlayer F) :
    writeSnap (processData process ptrs : Snapshot F) ∈ (write process ptrs player).1 := by
  unfold write
  dsimp only
  simp

/-- An event that is not empty is among them. -/
theorem writeEnemiesEvent_mem_write {process : HobbitProcessAnalyzer B} {ptrs : BilboPtrs}
    {player : MainPlayer F} (h : 0 < (writeEnemiesEvent process player).1.message.length) :
    (writeEnemiesEvent process player).1 ∈ (write process ptrs player).1 := by
  unfold write
  dsimp only
  rw [if_pos h]
  simp

end loops

end MainPlayer

/-! ## Messages that are skipped -/

/-- The label of a message. -/
def labelOf (message : List B) : DataLabel :=
  match message with
  | [] => .server
  | label :: _ => .ofByte (ByteLike.toByte label)

section skipped

variable [Zero F] [Add F] [LT F] [DecidableLT F]

variable (F) in
/-- With its label disabled, a message is read to its end and changes nothing. -/
def SkippedWhole (message : List B) : Prop :=
  ∀ states : LabelStates, states.processLabel (labelOf message) = false →
    ∀ senderID (g : GameState B F),
      readGameMessage states senderID ⟨message, g⟩ = .ok () ⟨[], g⟩

omit [FixedWidth B F 4] [Zero F] [Add F] [LT F] [DecidableLT F] in
theorem labelOf_of_sized {label : DataLabel} {size : UInt8} {len : ℕ} {message : List B}
    (h : MainPlayer.Sized label size len message)
    (hlabel : DataLabel.ofByte label.toByte = label) : labelOf message = label := by
  rcases h with ⟨rest, rfl, -⟩
  rw [labelOf, ByteLike.toByte_ofByte, hlabel]

theorem skippedWhole_of_sized {label : DataLabel} {len : ℕ} {message : List B}
    (h : MainPlayer.Sized label (UInt8.ofNat len) len message) (hlen : len < 256)
    (hlabel : DataLabel.ofByte label.toByte = label) : SkippedWhole F message := by
  intro states disabled senderID g
  rw [labelOf_of_sized h hlabel] at disabled
  exact readGameMessage_sized h hlen hlabel disabled senderID g

/-- The snapshot of a turn and its event of the inventory are skipped, and so is its
event of the enemies if few enough have changed. -/
theorem skippedWhole_write [Sub F] [BEq F] {process : HobbitProcessAnalyzer B}
    {ptrs : MainPlayer.BilboPtrs} {player : MainPlayer F} {msg : BaseMessage B}
    (hmsg : msg ∈ (MainPlayer.write process ptrs player).1)
    (h : labelOf msg.message ≠ .enemiesHealth ∨
      (reportedChanges process player.enemies).length ≤ 20 ∨
      (reportedChanges process player.enemies).length % 2 ^ 32 = 0) :
    SkippedWhole F msg.message := by
  rcases MainPlayer.mem_write hmsg with rfl | ⟨rfl, hpos⟩ | ⟨player', rfl, hpos⟩
  · have hsized : MainPlayer.Sized .connectedPlayerSnap (UInt8.ofNat 30) 30
        (MainPlayer.writeSnap (MainPlayer.processData process ptrs : Snapshot F) :
          BaseMessage B).message := MainPlayer.sized_writeSnap _
    exact skippedWhole_of_sized hsized (by omega) (by decide)
  · have hsized := MainPlayer.sized_writeEnemiesEvent process player hpos
    rcases h with hother | hfew | hwrapped
    · exact absurd (labelOf_of_sized hsized (by decide)) hother
    · exact skippedWhole_of_sized hsized (by omega) (by decide)
    · rw [MainPlayer.writeEnemiesEvent_wrapped process player hwrapped] at hpos
      cases hpos
  · rcases MainPlayer.sized_writeInventoryEvent process player' hpos with ⟨len, hlen, hsized⟩
    exact skippedWhole_of_sized hsized hlen (by decide)

/-! ## Blocks that are passed over -/

/-- A label without a handler takes itself and the size byte. -/
theorem readGameMessage_unhandled {states : LabelStates} {label : B} (size : B)
    (enabled : states.processLabel (.ofByte (ByteLike.toByte label)) = true) (senderID : UInt8)
    (rest : List B) (g : GameState B F)
    (hnone : handleLabel senderID (.ofByte (ByteLike.toByte label)) ⟨rest, g⟩ =
      .ok () ⟨rest, g⟩) :
    readGameMessage states senderID ⟨label :: size :: rest, g⟩ =
      readGameMessage states senderID ⟨rest, g⟩ :=
  readGameMessage_ok label size enabled hnone (Nat.le_refl _)

end skipped

/-! ## A crowd of enemies -/

/-- A game with 7 in every byte but one, in the GUID of the object at `0x800`. -/
def crowdGame : HobbitProcessAnalyzer UInt8 where
  isProcessSet := true
  memory := fun address => if address = 0x80E then 1 else 7
  objectStackAddress := 0
  objectStackSize := 0

/-- The address of an enemy. -/
def crowdAddress (i : ℕ) : UInt32 := 0x1000 * UInt32.ofNat (i + 1)

/-- A player who has recorded 0 as the health of `n` enemies, the last of them
the one at `0x800`. -/
def crowd (n : ℕ) : MainPlayer UInt32 :=
  { MainPlayer.readPtrs crowdGame { level := 0, enemies := [], inventory := [] } with
    enemies := (List.range (n - 1)).map (fun i => (crowdAddress i, 0)) ++ [(0x800, 0)] }

/-- The receiver of an event of the crowd. -/
def crowdReceiver : GameState UInt8 UInt32 where
  process := crowdGame
  mainPlayer := crowd 1
  connectedPlayers := fun _ =>
    { id := 0, hostLevel := 0, animation := 0, animFrame := 0, lastAnimFrame := 0,
      position := ⟨0, 0, 0⟩, rotationY := 0, weapon := 0 }

/-- All labels are enabled but the one of the enemies. -/
def withoutEnemies : LabelStates := fun label => some (label != .enemiesHealth)

theorem load_crowdGame {address : UInt32} {n : ℕ}
    (h : ∀ k < n, address + UInt32.ofNat k ≠ 0x80E) :
    load crowdGame.memory address n = List.replicate n 7 := by
  rw [load, List.eq_replicate_iff]
  constructor
  · simp
  · intro b hb
    rcases List.mem_map.1 hb with ⟨k, hk, rfl⟩
    exact if_neg (h k (List.mem_range.1 hk))

/-- The addresses of the crowd stay clear of `0x80E`. -/
theorem crowdAddress_ne (i shift : ℕ) {k : ℕ} (h : shift + k < 0x80E) :
    crowdAddress i + UInt32.ofNat shift + UInt32.ofNat k ≠ 0x80E := by
  intro heq
  have hnat := congrArg UInt32.toNat heq
  rw [UInt32.toNat_add, UInt32.toNat_add, crowdAddress, UInt32.toNat_mul, UInt32.toNat_ofNat',
    UInt32.toNat_ofNat', UInt32.toNat_ofNat'] at hnat
  change ((4096 * ((i + 1) % 2 ^ 32) % 2 ^ 32 + shift % 2 ^ 32) % 2 ^ 32 + k % 2 ^ 32) % 2 ^ 32 =
    2062 at hnat
  omega

theorem health_crowd (i : ℕ) :
    currentHealth crowdGame (crowdAddress i) = (0x07070707 : UInt32) := by
  have hload : load crowdGame.memory (healthAddress (crowdAddress i)) 4 = List.replicate 4 7 :=
    load_crowdGame fun k hk => crowdAddress_ne i 0x290 (by omega)
  have hset : crowdGame.isProcessSet = true := rfl
  rw [currentHealth, readData, if_pos hset, AddressSpace.read, hload]
  decide

theorem objGUID_crowd (i : ℕ) : crowdGame.objGUID (crowdAddress i) = 0x0707070707070707 := by
  have hload : load crowdGame.memory (crowdAddress i + 0x8) 8 = List.replicate 8 7 :=
    load_crowdGame fun k hk => crowdAddress_ne i 0x8 (by omega)
  have hset : crowdGame.isProcessSet = true := rfl
  rw [objGUID, readData, if_pos hset, AddressSpace.read, hload]
  decide

theorem reportedChanges_crowd (n : ℕ) :
    reportedChanges crowdGame (crowd n).enemies =
      List.replicate (n - 1) (0x0707070707070707, 0x07070707) ++
        [(0x0701070707070707, 0x07070707)] := by
  have hlast : reportedChanges crowdGame [((0x800 : UInt32), (0 : UInt32))] =
      [(0x0701070707070707, 0x07070707)] := by decide
  have hone (i : ℕ) : reportedChanges crowdGame [(crowdAddress i, (0 : UInt32))] =
      [(0x0707070707070707, 0x07070707)] := by
    simp [reportedChanges, health_crowd, objGUID_crowd]
  have happend (es es' : List (UInt32 × UInt32)) : reportedChanges crowdGame (es ++ es') =
      reportedChanges crowdGame es ++ reportedChanges crowdGame es' := by
    unfold reportedChanges
    rw [List.filter_append, List.map_append]
  have hmany (k : ℕ) : reportedChanges crowdGame
      ((List.range k).map fun i => (crowdAddress i, (0 : UInt32))) =
        List.replicate k (0x0707070707070707, 0x07070707) := by
    induction k with
    | zero => exact rfl
    | succ k ih =>
        rw [List.range_succ, List.map_append, happend, ih, List.map_singleton, hone,
          List.replicate_succ']
  unfold crowd
  dsimp only
  rw [happend, hmany, hlast]

theorem length_reportedChanges_crowd {n : ℕ} (hpos : 0 < n) :
    (reportedChanges crowdGame (crowd n).enemies).length = n := by
  rw [reportedChanges_crowd, List.length_append, List.length_replicate, List.length_singleton]
  omega

/-- The bytes of the entries: only the last one has a byte that is not 7. -/
theorem crowd_bytes (k : ℕ) :
    ((List.replicate k ((0x0707070707070707 : UInt64), (0x07070707 : UInt32)) ++
        [(0x0701070707070707, 0x07070707)]).flatMap entryBytes : List UInt8) =
      List.replicate (12 * k + 6) 7 ++ [1, 7, 7, 7, 7, 7] := by
  have hseven : (entryBytes ((0x0707070707070707 : UInt64), (0x07070707 : UInt32)) : List UInt8) =
      List.replicate 12 7 := by decide
  have hlast : (entryBytes ((0x0701070707070707 : UInt64), (0x07070707 : UInt32)) : List UInt8) =
      List.replicate 6 7 ++ [1, 7, 7, 7, 7, 7] := by decide
  have hmany : ((List.replicate k ((0x0707070707070707 : UInt64),
      (0x07070707 : UInt32))).flatMap entryBytes : List UInt8) = List.replicate (12 * k) 7 := by
    induction k with
    | zero => exact rfl
    | succ k ih =>
        rw [List.replicate_succ', List.flatMap_append, ih, List.flatMap_singleton, hseven,
          List.replicate_append_replicate, Nat.mul_succ]
  rw [List.flatMap_append, hmany, List.flatMap_singleton, hlast, ← List.append_assoc,
    List.replicate_append_replicate]

/-- The event of the crowd. -/
theorem crowd_message {n : ℕ} (hpos : 0 < n) (hsent : n % 2 ^ 32 ≠ 0) :
    (MainPlayer.writeEnemiesEvent crowdGame (crowd n)).1.message =
      3 :: UInt8.ofNat (4 + 12 * n) :: UInt8.ofNat n :: 0 :: 0 :: 0 ::
        (List.replicate (12 * (n - 1) + 6) 7 ++ [1, 7, 7, 7, 7, 7]) := by
  have hmessage := MainPlayer.writeEnemiesEvent_message crowdGame (crowd n)
  have hsome : UInt32.ofNat n ≠ 0 := by
    intro hzero
    have hnat := congrArg UInt32.toNat hzero
    rw [UInt32.toNat_ofNat'] at hnat
    exact hsent hnat
  have hbyte : UInt8.ofNat (n % 256) = UInt8.ofNat n := by
    apply UInt8.toNat_inj.1
    rw [UInt8.toNat_ofNat', UInt8.toNat_ofNat']
    omega
  rw [length_reportedChanges_crowd hpos, if_neg hsome, reportedChanges_crowd, crowd_bytes,
    eventBlock, MainPlayer.encode_count (Nat.mod_lt n (by decide : 256 > 0)), hbyte] at hmessage
  exact hmessage

/-- Seven is no label: two of them are passed over at a time. -/
theorem readGameMessage_sevens (m : ℕ) (rest : List UInt8) (g : GameState UInt8 UInt32) :
    readGameMessage withoutEnemies 1 ⟨List.replicate (2 * m) 7 ++ rest, g⟩ =
      readGameMessage withoutEnemies 1 ⟨rest, g⟩ := by
  induction m with
  | zero => exact rfl
  | succ m ih =>
      rw [Nat.mul_succ, List.replicate_succ, List.replicate_succ, List.cons_append,
        List.cons_append, readGameMessage_unhandled 7 rfl 1 _ g rfl, ih]

/-- The end of the event is taken for a snapshot that is too short. -/
theorem readGameMessage_crowd_end (g : GameState UInt8 UInt32) :
    ∃ e s, readGameMessage withoutEnemies 1 ⟨[1, 7, 7, 7, 7, 7], g⟩ = .error e s := by
  have enabled : withoutEnemies.processLabel (.ofByte (ByteLike.toByte (1 : UInt8))) = true := rfl
  have hshort : ¬ Complete UInt32 g.mainPlayer.inventory.length
      (.ofByte (ByteLike.toByte (1 : UInt8))) ([7, 7, 7, 7] : List UInt8) := by
    intro hcomplete
    have hlen : 30 ≤ 4 := hcomplete.1
    omega
  rcases readBlocks_throws 1 7 g enabled hshort with ⟨e, s, herr⟩
  exact ⟨e, s, herr 5⟩

/-- The rest of the event, from any entry on, throws. -/
theorem readGameMessage_crowd_rest {m : ℕ} (heven : m % 2 = 0) (g : GameState UInt8 UInt32) :
    ∃ e s, readGameMessage withoutEnemies 1
      ⟨List.replicate m 7 ++ [1, 7, 7, 7, 7, 7], g⟩ = .error e s := by
  have hm : m = 2 * (m / 2) := by omega
  rw [hm, readGameMessage_sevens]
  exact readGameMessage_crowd_end g

/-- With a size byte of 0 the count is taken for two labels that nobody handles. -/
theorem readGameMessage_crowd_count {n : ℕ} (h : n % 64 = 21) (rest : List UInt8)
    (g : GameState UInt8 UInt32) :
    readGameMessage withoutEnemies 1 ⟨UInt8.ofNat n :: 0 :: 0 :: 0 :: rest, g⟩ =
      readGameMessage withoutEnemies 1 ⟨rest, g⟩ := by
  have hbyte : UInt8.ofNat n = 21 ∨ UInt8.ofNat n = 85 ∨ UInt8.ofNat n = 149 ∨
      UInt8.ofNat n = 213 := by
    simp only [← UInt8.toNat_inj, UInt8.toNat_ofNat']
    change n % 256 = 21 ∨ n % 256 = 85 ∨ n % 256 = 149 ∨ n % 256 = 213
    omega
  rcases hbyte with hbyte | hbyte | hbyte | hbyte
  all_goals
    rw [hbyte, readGameMessage_unhandled 0 rfl 1 _ g rfl, readGameMessage_unhandled 0 rfl 1 _ g rfl]

/-- An event with 21 changed enemies or more is not skipped whole: its size byte
says less than there is, and the bytes left over end with a broken snapshot. -/
theorem crowd_not_skipped {n : ℕ} (h : 21 ≤ n) (hsent : n % 2 ^ 32 ≠ 0) :
    ¬ SkippedWhole UInt32 (MainPlayer.writeEnemiesEvent crowdGame (crowd n)).1.message := by
  intro hskipped
  have htoByte (b : UInt8) : ByteLike.toByte b = b := rfl
  have hsize : (UInt8.ofNat (4 + 12 * n)).toNat = (4 + 12 * n) % 256 := UInt8.toNat_ofNat'
  have hread := hskipped withoutEnemies
  rw [crowd_message (by omega) hsent] at hread
  specialize hread rfl 1 crowdReceiver
  rw [readGameMessage_disabled rfl, htoByte, hsize] at hread
  by_cases hzero : (4 + 12 * n) % 256 = 0
  · -- nothing is dropped
    rw [hzero, List.drop_zero, readGameMessage_crowd_count (by omega)] at hread
    have heven : (12 * (n - 1) + 6) % 2 = 0 := by omega
    rcases readGameMessage_crowd_rest heven crowdReceiver with ⟨e, s, herr⟩
    rw [herr] at hread
    cases hread
  · -- the count and some of the entries are dropped
    obtain ⟨k, hk⟩ : ∃ k, (4 + 12 * n) % 256 = k + 4 := ⟨(4 + 12 * n) % 256 - 4, by omega⟩
    have hdrop (rest : List UInt8) :
        (UInt8.ofNat n :: 0 :: 0 :: 0 :: rest).drop (k + 4) = rest.drop k := rfl
    have hinside : k ≤ (List.replicate (12 * (n - 1) + 6) (7 : UInt8)).length := by
      rw [List.length_replicate]
      omega
    rw [hk, hdrop, List.drop_append_of_le_length hinside, List.drop_replicate] at hread
    have heven : (12 * (n - 1) + 6 - k) % 2 = 0 := by omega
    rcases readGameMessage_crowd_rest heven crowdReceiver with ⟨e, s, herr⟩
    rw [herr] at hread
    cases hread

theorem crowd_mem_write {n : ℕ} (h : 21 ≤ n) (hsent : n % 2 ^ 32 ≠ 0)
    (ptrs : MainPlayer.BilboPtrs) :
    (MainPlayer.writeEnemiesEvent crowdGame (crowd n)).1 ∈
      (MainPlayer.write crowdGame ptrs (crowd n)).1 := by
  apply MainPlayer.writeEnemiesEvent_mem_write
  rw [crowd_message (by omega) hsent, List.length_cons]
  exact Nat.succ_pos _

theorem labelOf_crowd {n : ℕ} (h : 21 ≤ n) (hsent : n % 2 ^ 32 ≠ 0) :
    labelOf (MainPlayer.writeEnemiesEvent crowdGame (crowd n)).1.message = .enemiesHealth := by
  rw [crowd_message (by omega) hsent]
  rfl

/-- 21 enemies are too many for the size byte: 4 + 12 * 21 is 256. -/
theorem crowd_of_21 :
    ¬ ∀ msg ∈ (MainPlayer.write crowdGame (MainPlayer.readBilboPtrs crowdGame) (crowd 21)).1,
      SkippedWhole UInt32 msg.message := by
  intro hskipped
  have hmem := crowd_mem_write (Nat.le_refl 21) (by decide) (MainPlayer.readBilboPtrs crowdGame)
  exact crowd_not_skipped (Nat.le_refl 21) (by decide) (hskipped _ hmem)

/-! ## How many enemies may change -/

/-- Whatever a turn with `n` changed enemies writes under a label is skipped by a
receiver who has disabled it. -/
def AllSkipped (label : DataLabel) (n : ℕ) : Prop :=
  ∀ (F : Type) [FixedWidth UInt8 F 4] [Zero F] [Add F] [Sub F] [BEq F] [LT F] [DecidableLT F]
    (process : HobbitProcessAnalyzer UInt8) (ptrs : MainPlayer.BilboPtrs) (player : MainPlayer F),
    (reportedChanges process player.enemies).length = n →
      ∀ msg ∈ (MainPlayer.write process ptrs player).1, labelOf msg.message = label →
        SkippedWhole F msg.message

/-- The messages of a label are skipped for certain if and only if it is not the one of
the enemies, or at most 20 enemies have changed, or so many that the count of them wraps
to 0. -/
theorem disabled_labels_iff (label : DataLabel) (n : ℕ) :
    AllSkipped label n ↔ label ≠ .enemiesHealth ∨ n ≤ 20 ∨ n % 2 ^ 32 = 0 := by
  constructor
  · intro hskipped
    by_contra hmany
    rw [not_or, not_or, not_not, Nat.not_le] at hmany
    rcases hmany with ⟨rfl, hmany, hsent⟩
    have hlength := length_reportedChanges_crowd (Nat.zero_lt_of_lt hmany)
    have hmem := crowd_mem_write hmany hsent (MainPlayer.readBilboPtrs crowdGame)
    exact crowd_not_skipped hmany hsent
      (hskipped UInt32 crowdGame (MainPlayer.readBilboPtrs crowdGame) (crowd n) hlength _ hmem
        (labelOf_crowd hmany hsent))
  · intro h F _ _ _ _ _ _ _ process ptrs player hlength msg hmsg hlabel
    rw [← hlabel, ← hlength] at h
    exact skippedWhole_write hmsg h

end HobbitSynchrony
