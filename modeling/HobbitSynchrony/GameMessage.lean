import Mathlib.Data.UInt
import HobbitSynchrony.HobbitClient

/-! # Which game messages can be read

The handlers of `readGameMessage` throw on some byte sequences, and nothing
above `HobbitClient::update` catches. This file has the outcome of every
handler as a function of the bytes in front of it, and with it the exact
grammar of the messages that `readGameMessage` reads to its end.

* `Takes`: a handler that needs a fixed number of bytes;
* `Complete`, `blockLength`: when the block of a label is complete, and how
  many bytes its handler takes;
* `handleLabel_ok`, `handleLabel_error`: the two outcomes of a handler;
* `Readable`: the messages made of complete blocks, with disabled and unknown
  labels passed over as the code does;
* `readGameMessage_ok`, `readGameMessage_error`: a message whose first block is
  handled, or whose handler throws;
* `readGameMessage_returns_iff`: `readGameMessage` returns exactly on them.
-/

namespace HobbitSynchrony

open AddressSpace

variable {B F : Type}

/-! ## Running handlers -/

theorem bind_ok {α β : Type} {x : Handler B F α} {f : α → Handler B F β}
    {s s' : Handling B F} {a : α} (h : x s = .ok a s') : (x >>= f) s = f a s' := by
  show EStateM.bind x f s = f a s'
  rw [EStateM.bind, h]

theorem bind_error {α β : Type} {x : Handler B F α} {f : α → Handler B F β}
    {s s' : Handling B F} {e : GameError} (h : x s = .error e s') :
    (x >>= f) s = .error e s' := by
  show EStateM.bind x f s = .error e s'
  rw [EStateM.bind, h]

/-- A handler that returns has returned from its first part. -/
theorem bind_eq_ok {α β : Type} {x : Handler B F α} {f : α → Handler B F β}
    {s s' : Handling B F} {b : β} (h : (x >>= f) s = .ok b s') :
    ∃ a t, x s = .ok a t ∧ f a t = .ok b s' := by
  cases hx : x s with
  | ok a t =>
      rw [bind_ok hx] at h
      exact ⟨a, t, rfl, h⟩
  | error e t =>
      rw [bind_error hx] at h
      cases h

theorem convert_ok {T : Type} {n : ℕ} [FixedWidth B T n] {s : Handling B F}
    (h : n ≤ s.gameData.length) :
    convert T s = .ok (FixedWidth.decode (s.gameData.take n))
      { s with gameData := s.gameData.drop n } := by
  simp [convert, onQueue, convertQueueToType_ok h]

theorem convert_error {T : Type} {n : ℕ} [FixedWidth B T n] {s : Handling B F}
    (h : s.gameData.length < n) : convert T s = .error .notEnoughElements s := by
  simp [convert, onQueue, convertQueueToType_error h]

/-- What is read does not depend on the game. -/
theorem convert_any_game {T : Type} {n : ℕ} [FixedWidth B T n] {s s' : Handling B F} {value : T}
    (h : convert T s = .ok value s') (g : GameState B F) :
    convert T ⟨s.gameData, g⟩ = .ok value ⟨s'.gameData, g⟩ := by
  by_cases hlen : n ≤ s.gameData.length
  · rw [convert_ok hlen] at h
    cases h
    exact convert_ok (s := ⟨s.gameData, g⟩) hlen
  · rw [convert_error (Nat.lt_of_not_le hlen)] at h
    cases h

/-- A handler that needs `n` bytes, takes them, and keeps the number of
inventory entries. -/
structure Takes {α : Type} (x : Handler B F α) (n : ℕ) : Prop where
  ok : ∀ s : Handling B F, n ≤ s.gameData.length →
    ∃ a g, x s = .ok a ⟨s.gameData.drop n, g⟩ ∧
      g.mainPlayer.inventory.length = s.game.mainPlayer.inventory.length
  error : ∀ s : Handling B F, s.gameData.length < n → ∃ e s', x s = .error e s'

theorem Takes.bind {α β : Type} {x : Handler B F α} {f : α → Handler B F β} {n k : ℕ}
    (hx : Takes x n) (hf : ∀ a, Takes (f a) k) : Takes (x >>= f) (n + k) where
  ok := by
    intro s hs
    rcases hx.ok s (by omega) with ⟨a, g, hrun, hlen⟩
    rcases (hf a).ok ⟨s.gameData.drop n, g⟩ (by simp; omega) with ⟨b, g', hrun', hlen'⟩
    refine ⟨b, g', ?_, hlen'.trans hlen⟩
    rw [bind_ok hrun, hrun', List.drop_drop]
  error := by
    intro s hs
    by_cases hn : n ≤ s.gameData.length
    · -- the second handler runs short
      rcases hx.ok s hn with ⟨a, g, hrun, -⟩
      rcases (hf a).error ⟨s.gameData.drop n, g⟩ (by simp; omega) with ⟨e, s', herr⟩
      exact ⟨e, s', by rw [bind_ok hrun, herr]⟩
    · rcases hx.error s (by omega) with ⟨e, s', herr⟩
      exact ⟨e, s', bind_error herr⟩

theorem takes_pure {α : Type} (a : α) : Takes (pure a : Handler B F α) 0 where
  ok := fun s _ => ⟨a, s.game, rfl, rfl⟩
  error := by
    intro s hs
    omega

theorem takes_convert (T : Type) {n : ℕ} [FixedWidth B T n] :
    Takes (convert T : Handler B F T) n where
  ok := fun s hs => ⟨_, s.game, convert_ok hs, rfl⟩
  error := fun s hs => ⟨_, s, convert_error hs⟩

theorem takes_onGame {f : GameState B F → GameState B F}
    (h : ∀ g, (f g).mainPlayer.inventory.length = g.mainPlayer.inventory.length) :
    Takes (onGame f) 0 where
  ok := fun s _ => ⟨(), f s.game, rfl, h s.game⟩
  error := by
    intro s hs
    omega

theorem takes_popQueue : Takes (onQueue popQueue : Handler B F Unit) 1 where
  ok := by
    intro s hs
    match hq : s.gameData with
    | [] => simp [hq] at hs
    | b :: rest => exact ⟨(), s.game, by simp [onQueue, popQueue, hq], rfl⟩
  error := by
    intro s hs
    have hq : s.gameData = [] := List.length_eq_zero_iff.1 (by omega)
    exact ⟨.popEmpty, { s with gameData := [] }, by simp [onQueue, popQueue, hq]⟩

/-! ## The handlers of a fixed length -/

section handlers

variable [ByteLike B] [FixedWidth B F 4]

omit [ByteLike B] [FixedWidth B F 4] in
theorem takes_readField (slot : Fin 7) (T : Type) {n : ℕ} [FixedWidth B T n]
    (set : ConnectedPlayer F → T → ConnectedPlayer F) :
    Takes (readField slot T set : Handler B F Unit) n := by
  have h : Takes (readField slot T set : Handler B F Unit) (n + 0) := by
    refine (takes_convert T).bind fun value => takes_onGame ?_
    intro g
    rfl
  exact h

theorem takes_readConectedPlayerSnap (slot : Fin 7) :
    Takes (readConectedPlayerSnap slot : Handler B F Unit) 30 :=
  (takes_readField slot UInt8 _).bind fun _ =>
    (takes_readField slot UInt32 _).bind fun _ =>
    (takes_readField slot F _).bind fun _ =>
    (takes_readField slot F _).bind fun _ =>
    (takes_readField slot F _).bind fun _ =>
    (takes_readField slot F _).bind fun _ =>
    (takes_readField slot F _).bind fun _ =>
    (takes_readField slot F _).bind fun _ => takes_readField slot Int8 _

omit [FixedWidth B F 4] in
theorem takes_readConectedPlayerLevel : Takes (readConectedPlayerLevel : Handler B F Unit) 5 := by
  refine (takes_convert UInt32).bind fun newLevel => (takes_onGame ?_).bind fun _ => takes_popQueue
  intro g
  dsimp only
  split <;> rfl

variable [Zero F] [Add F]

theorem inventory_applyEnemyHealth (guid : UInt64) (healthChange : F) (g : GameState B F) :
    (applyEnemyHealth guid healthChange g).mainPlayer.inventory = g.mainPlayer.inventory := by
  unfold applyEnemyHealth
  dsimp only
  split
  · split
    · rfl
    · split <;> rfl
  · rfl

theorem takes_readEnemies (n : ℕ) : Takes (readEnemies n : Handler B F Unit) (12 * n) := by
  induction n with
  | zero => exact takes_pure ()
  | succ n ih =>
      have hentry : Takes (readEnemies (n + 1) : Handler B F Unit) (8 + (4 + 12 * n)) := by
        refine (takes_convert UInt64).bind fun guid => (takes_convert F).bind fun change => ?_
        split
        · exact ih
        · have happly : Takes (onGame (applyEnemyHealth guid change) : Handler B F Unit) 0 :=
            takes_onGame fun g => congrArg _ (inventory_applyEnemyHealth guid change g)
          simpa using happly.bind fun _ => ih
      have hlen : 8 + (4 + 12 * n) = 12 * (n + 1) := by omega
      rwa [hlen] at hentry

/-! ## The inventory handler -/

section entries

variable (K : Type) {k : ℕ} [FixedWidth B K k]

/-- The pairs at the head of a queue. -/
def entriesOf (F : Type) [FixedWidth B F 4] : ℕ → List B → List (K × F)
  | 0, _ => []
  | n + 1, q =>
    (FixedWidth.decode (q.take k), FixedWidth.decode ((q.drop k).take 4)) ::
      entriesOf F n (q.drop (k + 4))

omit [ByteLike B] [Zero F] [Add F] in
theorem readEntries_ok (n : ℕ) (s : Handling B F) (h : (k + 4) * n ≤ s.gameData.length) :
    readEntries K n s =
      .ok (entriesOf K F n s.gameData) { s with gameData := s.gameData.drop ((k + 4) * n) } := by
  induction n generalizing s with
  | zero => rfl
  | succ n ih =>
      rw [Nat.mul_succ] at h
      have hkey : k ≤ s.gameData.length := by omega
      have hvalue : 4 ≤ (s.gameData.drop k).length := by
        rw [List.length_drop]
        omega
      have hrest := ih { s with gameData := s.gameData.drop (k + 4) } (by simp; omega)
      have hlen : k + 4 + (k + 4) * n = (k + 4) * (n + 1) := by
        rw [Nat.mul_succ, Nat.add_comm]
      rw [List.drop_drop, hlen] at hrest
      rw [readEntries, bind_ok (convert_ok hkey), bind_ok (convert_ok hvalue)]
      simp only [List.drop_drop]
      rw [bind_ok hrest]
      rfl

omit [ByteLike B] [Zero F] [Add F] in
theorem readEntries_error (n : ℕ) (s : Handling B F) (h : s.gameData.length < (k + 4) * n) :
    ∃ e s', (readEntries K n : Handler B F (List (K × F))) s = .error e s' := by
  induction n generalizing s with
  | zero => omega
  | succ n ih =>
      rw [Nat.mul_succ] at h
      by_cases hkey : k ≤ s.gameData.length
      · by_cases hvalue : 4 ≤ (s.gameData.drop k).length
        · -- the first pair is there, a later one is short
          rw [List.length_drop] at hvalue
          rcases ih { s with gameData := s.gameData.drop (k + 4) } (by simp; omega) with
            ⟨e, s', herr⟩
          rw [← List.length_drop] at hvalue
          refine ⟨e, s', ?_⟩
          rw [readEntries, bind_ok (convert_ok hkey), bind_ok (convert_ok hvalue)]
          simp only [List.drop_drop]
          rw [bind_error herr]
        · refine ⟨.notEnoughElements, { s with gameData := s.gameData.drop k }, ?_⟩
          rw [readEntries, bind_ok (convert_ok hkey)]
          exact bind_error (convert_error (Nat.lt_of_not_le hvalue))
      · exact ⟨_, _, bind_error (convert_error (Nat.lt_of_not_le hkey))⟩

end entries

variable [LT F] [DecidableLT F]

omit [Zero F] [Add F] [ByteLike B] [FixedWidth B F 4] [LT F] [DecidableLT F] in
/-- Every item of the entries is below `items`. -/
def ItemsBelow (items : ℕ) (entries : List (UInt8 × F)) : Prop :=
  ∀ entry ∈ entries, entry.1.toNat < items

omit [ByteLike B] in
theorem applyInventories_ok (entries : List (UInt8 × F)) (s : Handling B F)
    (h : ItemsBelow s.game.mainPlayer.inventory.length entries) :
    ∃ g, applyInventories entries s = .ok () { s with game := g } ∧
      g.mainPlayer.inventory.length = s.game.mainPlayer.inventory.length := by
  induction entries generalizing s with
  | nil => exact ⟨s.game, rfl, rfl⟩
  | cons entry rest ih =>
      have hget := List.getElem?_eq_getElem (h entry List.mem_cons_self)
      have hrest : ItemsBelow s.game.mainPlayer.inventory.length rest :=
        fun e he => h e (List.mem_cons_of_mem _ he)
      have hstep : ∃ g, applyInventory entry.1 entry.2 s = .ok () { s with game := g } ∧
          g.mainPlayer.inventory.length = s.game.mainPlayer.inventory.length := by
        refine ⟨_, by rw [applyInventory, hget], ?_⟩
        simp
      rcases hstep with ⟨g, hrun, hlen⟩
      rcases ih { s with game := g } (by rw [hlen]; exact hrest) with ⟨g', hrun', hlen'⟩
      exact ⟨g', by rw [applyInventories, bind_ok hrun, hrun'], hlen'.trans hlen⟩

omit [ByteLike B] in
theorem applyInventories_error (entries : List (UInt8 × F)) (s : Handling B F)
    (h : ¬ ItemsBelow s.game.mainPlayer.inventory.length entries) :
    ∃ e s', applyInventories entries s = .error e s' := by
  induction entries generalizing s with
  | nil =>
      exfalso
      apply h
      intro entry hentry
      simp at hentry
  | cons entry rest ih =>
      by_cases hitem : entry.1.toNat < s.game.mainPlayer.inventory.length
      · -- the head entry is applied, a later one is out of range
        have hget := List.getElem?_eq_getElem hitem
        have hrest : ¬ ItemsBelow s.game.mainPlayer.inventory.length rest := by
          intro hall
          apply h
          intro e he
          rcases List.mem_cons.1 he with rfl | he
          · exact hitem
          · exact hall e he
        have hstep : ∃ g, applyInventory entry.1 entry.2 s = .ok () { s with game := g } ∧
            g.mainPlayer.inventory.length = s.game.mainPlayer.inventory.length := by
          refine ⟨_, by rw [applyInventory, hget], ?_⟩
          simp
        rcases hstep with ⟨g, hrun, hlen⟩
        rcases ih { s with game := g } (by rw [hlen]; exact hrest) with ⟨e, s', herr⟩
        exact ⟨e, s', by rw [applyInventories, bind_ok hrun, herr]⟩
      · refine ⟨.outOfRange, s, ?_⟩
        rw [applyInventories]
        apply bind_error
        rw [applyInventory, List.getElem?_eq_none (Nat.le_of_not_lt hitem)]

/-! ## The two outcomes of a handler -/

/-- How many bytes the handler of a label takes. -/
def blockLength (label : DataLabel) (q : List B) : ℕ :=
  match label with
  | .connectedPlayerSnap => 30
  | .connectedPlayerLevel => 5
  | .enemiesHealth => 4 + 12 * (FixedWidth.decode (q.take 4) : UInt32).toNat
  | .inventory => 4 + 5 * (FixedWidth.decode (q.take 4) : UInt32).toNat
  | .server => 0
  | .other _ => 0

variable (F) in
/-- The queue has all the bytes the handler of `label` takes, and an inventory
block names only items below `items`. -/
def Complete (items : ℕ) (label : DataLabel) (q : List B) : Prop :=
  blockLength label q ≤ q.length ∧
    (label = .inventory →
      ItemsBelow items (entriesOf UInt8 F (FixedWidth.decode (q.take 4) : UInt32).toNat (q.drop 4)))

omit [LT F] [DecidableLT F] in
theorem readProcessEnemiesHealth_ok (s : Handling B F)
    (h : blockLength .enemiesHealth s.gameData ≤ s.gameData.length) :
    ∃ g, readProcessEnemiesHealth s =
        .ok () ⟨s.gameData.drop (blockLength .enemiesHealth s.gameData), g⟩ ∧
      g.mainPlayer.inventory.length = s.game.mainPlayer.inventory.length := by
  unfold blockLength at h ⊢
  dsimp only at h ⊢
  set n := (FixedWidth.decode (s.gameData.take 4) : UInt32) with hn
  have hrest : 12 * n.toNat ≤ (s.gameData.drop 4).length := by
    rw [List.length_drop]
    omega
  rcases (takes_readEnemies n.toNat).ok ⟨s.gameData.drop 4, s.game⟩ hrest with ⟨_, g, hrun, hlen⟩
  refine ⟨g, ?_, hlen⟩
  rw [readProcessEnemiesHealth, bind_ok (convert_ok (by omega)), ← hn, hrun, List.drop_drop]

omit [LT F] [DecidableLT F] in
theorem readProcessEnemiesHealth_error (s : Handling B F)
    (h : ¬ blockLength .enemiesHealth s.gameData ≤ s.gameData.length) :
    ∃ e s', readProcessEnemiesHealth s = .error e s' := by
  unfold blockLength at h
  dsimp only at h
  by_cases hcount : 4 ≤ s.gameData.length
  · -- the count is there, the entries are short
    have hrest : (s.gameData.drop 4).length <
        12 * (FixedWidth.decode (s.gameData.take 4) : UInt32).toNat := by
      rw [List.length_drop]
      omega
    rcases (takes_readEnemies _).error ⟨s.gameData.drop 4, s.game⟩ hrest with ⟨e, s', herr⟩
    exact ⟨e, s', by rw [readProcessEnemiesHealth, bind_ok (convert_ok hcount), herr]⟩
  · -- not even the count is there
    exact ⟨_, _, bind_error (convert_error (by omega))⟩

theorem readProcessInventory_ok (s : Handling B F)
    (h : Complete F s.game.mainPlayer.inventory.length .inventory s.gameData) :
    ∃ g, readProcessInventory s =
        .ok () ⟨s.gameData.drop (blockLength .inventory s.gameData), g⟩ ∧
      g.mainPlayer.inventory.length = s.game.mainPlayer.inventory.length := by
  rcases h with ⟨hlen, hitems⟩
  unfold blockLength at hlen ⊢
  dsimp only at hlen ⊢
  set n := (FixedWidth.decode (s.gameData.take 4) : UInt32) with hn
  have hread := readEntries_ok (F := F) UInt8 n.toNat ⟨s.gameData.drop 4, s.game⟩
    (by rw [List.length_drop]; omega)
  rcases applyInventories_ok _ ⟨(s.gameData.drop 4).drop (5 * n.toNat), s.game⟩ (hitems rfl) with
    ⟨g, hrun, hkeep⟩
  refine ⟨g, ?_, hkeep⟩
  rw [readProcessInventory, bind_ok (convert_ok (by omega)), ← hn, bind_ok hread, hrun,
    List.drop_drop]

theorem readProcessInventory_error (s : Handling B F)
    (h : ¬ Complete F s.game.mainPlayer.inventory.length .inventory s.gameData) :
    ∃ e s', readProcessInventory s = .error e s' := by
  -- too short for the count, too short for the entries, or an item out of range
  by_cases hcount : 4 ≤ s.gameData.length
  · rw [readProcessInventory, bind_ok (convert_ok hcount)]
    set n := (FixedWidth.decode (s.gameData.take 4) : UInt32) with hn
    by_cases hentries : 5 * n.toNat ≤ (s.gameData.drop 4).length
    · -- all entries are there, so an item is out of range
      have hitems : ¬ ItemsBelow s.game.mainPlayer.inventory.length
          (entriesOf UInt8 F n.toNat (s.gameData.drop 4)) := by
        intro hall
        apply h
        refine ⟨?_, fun _ => hall⟩
        unfold blockLength
        dsimp only
        rw [← hn]
        rw [List.length_drop] at hentries
        omega
      rcases applyInventories_error _ ⟨(s.gameData.drop 4).drop (5 * n.toNat), s.game⟩ hitems with
        ⟨e, s', herr⟩
      exact ⟨e, s', by rw [bind_ok (readEntries_ok UInt8 n.toNat _ hentries), herr]⟩
    · rcases readEntries_error (F := F) UInt8 n.toNat ⟨s.gameData.drop 4, s.game⟩
          (Nat.lt_of_not_le hentries) with ⟨e, s', herr⟩
      exact ⟨e, s', bind_error herr⟩
  · exact ⟨_, _, bind_error (convert_error (by omega))⟩

/-- On a complete block the handler returns, having taken the block. -/
theorem handleLabel_ok (senderID : UInt8) (label : DataLabel) (s : Handling B F)
    (h : Complete F s.game.mainPlayer.inventory.length label s.gameData) :
    ∃ g, handleLabel senderID label s =
        .ok () ⟨s.gameData.drop (blockLength label s.gameData), g⟩ ∧
      g.mainPlayer.inventory.length = s.game.mainPlayer.inventory.length := by
  cases label with
  | connectedPlayerSnap =>
      rcases (takes_readConectedPlayerSnap (slotOf s.game senderID)).ok s h.1 with ⟨_, g, hrun⟩
      exact ⟨g, hrun⟩
  | connectedPlayerLevel =>
      rcases takes_readConectedPlayerLevel.ok s h.1 with ⟨_, g, hrun⟩
      exact ⟨g, hrun⟩
  | enemiesHealth => exact readProcessEnemiesHealth_ok s h.1
  | inventory => exact readProcessInventory_ok s h
  | server => exact ⟨s.game, rfl, rfl⟩
  | other value => exact ⟨s.game, rfl, rfl⟩

/-- On any other queue it throws. -/
theorem handleLabel_error (senderID : UInt8) (label : DataLabel) (s : Handling B F)
    (h : ¬ Complete F s.game.mainPlayer.inventory.length label s.gameData) :
    ∃ e s', handleLabel senderID label s = .error e s' := by
  -- only inventory blocks look at the items
  have hshort : label ≠ .inventory → s.gameData.length < blockLength label s.gameData := by
    intro hlabel
    by_contra hlen
    exact h ⟨Nat.le_of_not_lt hlen, fun hinv => absurd hinv hlabel⟩
  cases label with
  | connectedPlayerSnap =>
      exact (takes_readConectedPlayerSnap (slotOf s.game senderID)).error s (hshort (by decide))
  | connectedPlayerLevel => exact takes_readConectedPlayerLevel.error s (hshort (by decide))
  | enemiesHealth =>
      exact readProcessEnemiesHealth_error s (Nat.not_le.2 (hshort (by decide)))
  | inventory => exact readProcessInventory_error s h
  | server => exact absurd (hshort (by decide)) (Nat.not_lt_zero _)
  | other value => exact absurd (hshort (by simp)) (Nat.not_lt_zero _)

/-! ## The grammar of the readable messages -/

variable (F) in
/-- The messages `readGameMessage` reads to the end when the inventory has
`items` entries. The size byte only matters under a disabled label. -/
inductive Readable (states : LabelStates) (items : ℕ) : List B → Prop
  | nil : Readable states items []
  | missingSize (label : B) : Readable states items [label]
  | skipped (label size : B) (rest : List B)
      (disabled : states.processLabel (.ofByte (ByteLike.toByte label)) = false)
      (more : Readable states items (rest.drop (ByteLike.toByte size).toNat)) :
      Readable states items (label :: size :: rest)
  | block (label size : B) (rest : List B)
      (enabled : states.processLabel (.ofByte (ByteLike.toByte label)) = true)
      (complete : Complete F items (.ofByte (ByteLike.toByte label)) rest)
      (more : Readable states items
        (rest.drop (blockLength (.ofByte (ByteLike.toByte label)) rest))) :
      Readable states items (label :: size :: rest)

/-! ## One turn of the loop -/

theorem readBlocks_nil (states : LabelStates) (senderID : UInt8) (fuel : ℕ)
    (game : GameState B F) :
    readBlocks states senderID fuel ⟨[], game⟩ = .ok () ⟨[], game⟩ := by
  cases fuel <;> rfl

section turn

variable {states : LabelStates} (senderID : UInt8) {label : B} (size : B) {rest : List B}
  (game : GameState B F)

theorem readBlocks_skipped
    (disabled : states.processLabel (.ofByte (ByteLike.toByte label)) = false) (fuel : ℕ) :
    readBlocks states senderID (fuel + 1) ⟨label :: size :: rest, game⟩ =
      readBlocks states senderID fuel ⟨rest.drop (ByteLike.toByte size).toNat, game⟩ := by
  simp [readBlocks, disabled]

theorem readBlocks_block
    (enabled : states.processLabel (.ofByte (ByteLike.toByte label)) = true)
    (complete : Complete F game.mainPlayer.inventory.length
      (.ofByte (ByteLike.toByte label)) rest) :
    ∃ g : GameState B F, g.mainPlayer.inventory.length = game.mainPlayer.inventory.length ∧
      ∀ fuel, readBlocks states senderID (fuel + 1) ⟨label :: size :: rest, game⟩ =
        readBlocks states senderID fuel
          ⟨rest.drop (blockLength (.ofByte (ByteLike.toByte label)) rest), g⟩ := by
  rcases handleLabel_ok senderID _ ⟨rest, game⟩ complete with ⟨g, hrun, hlen⟩
  refine ⟨g, hlen, ?_⟩
  intro fuel
  simp only [readBlocks, enabled, if_true]
  exact bind_ok hrun

theorem readBlocks_throws
    (enabled : states.processLabel (.ofByte (ByteLike.toByte label)) = true)
    (broken : ¬ Complete F game.mainPlayer.inventory.length
      (.ofByte (ByteLike.toByte label)) rest) :
    ∃ e s', ∀ fuel,
      readBlocks states senderID (fuel + 1) ⟨label :: size :: rest, game⟩ = .error e s' := by
  rcases handleLabel_error senderID _ ⟨rest, game⟩ broken with ⟨e, s', herr⟩
  refine ⟨e, s', ?_⟩
  intro fuel
  simp only [readBlocks, enabled, if_true]
  exact bind_error herr

end turn

/-! ## The whole loop -/

/-- The fuel does not matter once it covers the queue. -/
theorem readBlocks_fuel (states : LabelStates) (senderID : UInt8) (fuel fuel' : ℕ) (q : List B)
    (game : GameState B F) (h : q.length ≤ fuel) (h' : q.length ≤ fuel') :
    readBlocks states senderID fuel ⟨q, game⟩ = readBlocks states senderID fuel' ⟨q, game⟩ := by
  -- both loops take the same turn, and go on with a shorter queue
  induction fuel generalizing fuel' q game with
  | zero =>
      have hnil : q = [] := List.length_eq_zero_iff.1 (by omega)
      rw [hnil, readBlocks_nil, readBlocks_nil]
  | succ fuel ih =>
      match q, fuel' with
      | [], _ => rw [readBlocks_nil, readBlocks_nil]
      | [label], fuel' + 1 => rfl
      | label :: size :: rest, fuel' + 1 =>
        simp only [List.length_cons] at h h'
        have hdrop (n : ℕ) : (rest.drop n).length ≤ rest.length := by simp
        cases henabled : states.processLabel (.ofByte (ByteLike.toByte label)) with
        | false =>
            rw [readBlocks_skipped senderID size game henabled,
              readBlocks_skipped senderID size game henabled]
            exact ih _ _ _ ((hdrop _).trans (by omega)) ((hdrop _).trans (by omega))
        | true =>
            by_cases hcomplete : Complete F game.mainPlayer.inventory.length
                (.ofByte (ByteLike.toByte label)) rest
            · rcases readBlocks_block senderID size game henabled hcomplete with ⟨g, -, hturn⟩
              rw [hturn, hturn]
              exact ih _ _ _ ((hdrop _).trans (by omega)) ((hdrop _).trans (by omega))
            · rcases readBlocks_throws senderID size game henabled hcomplete with ⟨e, s', hturn⟩
              rw [hturn, hturn]

section message

variable {states : LabelStates} {senderID : UInt8} (label size : B) {rest : List B}
  {g : GameState B F}

/-- The handler returns, and the loop goes on. -/
theorem readGameMessage_ok {rest' : List B} {g' : GameState B F}
    (enabled : states.processLabel (.ofByte (ByteLike.toByte label)) = true)
    (hrun : handleLabel senderID (.ofByte (ByteLike.toByte label)) ⟨rest, g⟩ =
      .ok () ⟨rest', g'⟩) (hlen : rest'.length ≤ rest.length) :
    readGameMessage states senderID ⟨label :: size :: rest, g⟩ =
      readGameMessage states senderID ⟨rest', g'⟩ := by
  unfold readGameMessage
  dsimp only
  rw [List.length_cons, readBlocks]
  simp only [enabled, if_true]
  rw [bind_ok hrun]
  exact readBlocks_fuel states senderID _ _ rest' g' (by rw [List.length_cons]; omega) le_rfl

/-- The handler throws, and nothing catches it. -/
theorem readGameMessage_error {e : GameError} {s : Handling B F}
    (enabled : states.processLabel (.ofByte (ByteLike.toByte label)) = true)
    (hrun : handleLabel senderID (.ofByte (ByteLike.toByte label)) ⟨rest, g⟩ = .error e s) :
    readGameMessage states senderID ⟨label :: size :: rest, g⟩ = .error e s := by
  unfold readGameMessage
  dsimp only
  rw [List.length_cons, readBlocks]
  simp only [enabled, if_true]
  exact bind_error hrun

end message

/-- A readable message is read to its end. -/
theorem readBlocks_of_readable (states : LabelStates) (senderID : UInt8) (items : ℕ) (q : List B)
    (h : Readable F states items q) (fuel : ℕ) (hfuel : q.length ≤ fuel) (game : GameState B F)
    (hitems : game.mainPlayer.inventory.length = items) :
    ∃ g, readBlocks states senderID fuel ⟨q, game⟩ = .ok () ⟨[], g⟩ ∧
      g.mainPlayer.inventory.length = items := by
  induction h generalizing fuel game with
  | nil => exact ⟨game, readBlocks_nil states senderID fuel game, hitems⟩
  | missingSize label =>
      obtain ⟨fuel, rfl⟩ : ∃ k, fuel = k + 1 := ⟨fuel - 1, by simp at hfuel; omega⟩
      exact ⟨game, rfl, hitems⟩
  | skipped label size rest disabled more ih =>
      simp only [List.length_cons] at hfuel
      obtain ⟨fuel, rfl⟩ : ∃ k, fuel = k + 1 := ⟨fuel - 1, by omega⟩
      rw [readBlocks_skipped senderID size game disabled]
      exact ih fuel (by rw [List.length_drop]; omega) game hitems
  | block label size rest enabled complete more ih =>
      simp only [List.length_cons] at hfuel
      obtain ⟨fuel, rfl⟩ : ∃ k, fuel = k + 1 := ⟨fuel - 1, by omega⟩
      subst hitems
      rcases readBlocks_block senderID size game enabled complete with ⟨g, hlen, hturn⟩
      rw [hturn]
      exact ih fuel (by rw [List.length_drop]; omega) g hlen

/-- A message whose reading returns is readable. -/
theorem readable_of_readBlocks (states : LabelStates) (senderID : UInt8) (fuel : ℕ) (q : List B)
    (hfuel : q.length ≤ fuel) (game : GameState B F) (s' : Handling B F)
    (h : readBlocks states senderID fuel ⟨q, game⟩ = .ok () s') :
    Readable F states game.mainPlayer.inventory.length q := by
  induction fuel generalizing q game with
  | zero =>
      have hnil : q = [] := List.length_eq_zero_iff.1 (by omega)
      rw [hnil]
      exact .nil
  | succ fuel ih =>
      match q with
      | [] => exact .nil
      | [label] => exact .missingSize label
      | label :: size :: rest =>
        simp only [List.length_cons] at hfuel
        cases henabled : states.processLabel (.ofByte (ByteLike.toByte label)) with
        | false =>
            rw [readBlocks_skipped senderID size game henabled] at h
            exact .skipped label size rest henabled
              (ih _ (by rw [List.length_drop]; omega) game h)
        | true =>
            -- the handler returned, so the block was complete
            by_cases hcomplete : Complete F game.mainPlayer.inventory.length
                (.ofByte (ByteLike.toByte label)) rest
            · rcases readBlocks_block senderID size game henabled hcomplete with ⟨g, hlen, hturn⟩
              rw [hturn] at h
              have hmore := ih _ (by rw [List.length_drop]; omega) g h
              rw [hlen] at hmore
              exact .block label size rest henabled hcomplete hmore
            · rcases readBlocks_throws senderID size game henabled hcomplete with ⟨e, s'', hturn⟩
              rw [hturn] at h
              cases h

/-- `readGameMessage` returns exactly on the readable messages. -/
theorem readGameMessage_returns_iff (states : LabelStates) (senderID : UInt8) (q : List B)
    (game : GameState B F) :
    (∃ s', readGameMessage states senderID ⟨q, game⟩ = .ok () s') ↔
      Readable F states game.mainPlayer.inventory.length q := by
  constructor
  · rintro ⟨s', h⟩
    exact readable_of_readBlocks states senderID q.length q le_rfl game s' h
  · intro h
    rcases readBlocks_of_readable states senderID _ q h q.length le_rfl game rfl with ⟨g, hrun, -⟩
    exact ⟨⟨[], g⟩, hrun⟩

/-- A message leaves the items of the inventory in their places. -/
theorem length_inventory_readGameMessage {states : LabelStates} {senderID : UInt8} {q : List B}
    {game : GameState B F} {s' : Handling B F}
    (h : readGameMessage states senderID ⟨q, game⟩ = .ok () s') :
    s'.game.mainPlayer.inventory.length = game.mainPlayer.inventory.length := by
  have hreadable := (readGameMessage_returns_iff states senderID q game).1 ⟨s', h⟩
  rcases readBlocks_of_readable states senderID _ q hreadable q.length le_rfl game rfl with
    ⟨g, hrun, hlen⟩
  have hsame := h.symm.trans hrun
  cases hsame
  exact hlen

end handlers

/-! ## Messages that throw -/

/-- A game whose memory is zero. -/
def blankProcess : HobbitProcessAnalyzer UInt8 where
  isProcessSet := true
  memory := fun _ => 0
  objectStackAddress := 0
  objectStackSize := 0

/-- A client that has just run `readPtrs` on it. The floats are kept as their
bits: no error depends on float arithmetic. -/
def freshGame : GameState UInt8 UInt32 := GameState.fresh blankProcess

/-- A snapshot label with nothing after it, an inventory entry for item 56,
and a level change without its last byte. -/
theorem readGameMessage_throws :
    (∃ s', readGameMessage (fun _ => none) 1 ⟨[1, 0], freshGame⟩ =
      .error .notEnoughElements s') ∧
    (∃ s', readGameMessage (fun _ => none) 1 ⟨[4, 9, 1, 0, 0, 0, 56, 0, 0, 0, 0], freshGame⟩ =
      .error .outOfRange s') ∧
    (∃ s', readGameMessage (fun _ => none) 1 ⟨[2, 4, 0, 0, 0, 0], freshGame⟩ =
      .error .popEmpty s') := by
  refine ⟨?snap, ?inventory, ?level⟩
  case snap => exact ⟨_, rfl⟩
  case inventory => exact ⟨_, rfl⟩
  case level => exact ⟨_, rfl⟩

end HobbitSynchrony
