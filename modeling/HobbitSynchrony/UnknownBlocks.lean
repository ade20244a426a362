import HobbitSynchrony.FailedBlocks

/-! # Blocks with unknown labels

Messages made of blocks, as the writers emit them or with labels that
`readGameMessage` does not know. An unknown label is only logged: its size byte
is not used, and what follows is read as the next block.

* `Framed`: a handler that does not look beyond its block;
* `Block`, `Emitted`: blocks, and those that the writers emit;
* `processBlocks`: what a message should do, block by block;
* `Skips`, `Void`: the bytes that are read as blocks without effect;
* `Void.read`, `noticed_of_not_void`: an unknown block goes unnoticed exactly if
  its payload is such bytes;
* `absent_iff`: the unknown blocks that may be in a message.
-/

namespace HobbitSynchrony

open AddressSpace HobbitProcessAnalyzer

/-! ## Handlers that stay in their block -/

section framed

variable {B F : Type}

/-- More bytes behind those the handler takes are left in the queue. (A handler
that runs out of bytes may do something else.) -/
structure Framed {α : Type} (x : Handler B F α) : Prop where
  ok : ∀ {q : List B} {g : GameState B F} {a : α} {s : Handling B F}, x ⟨q, g⟩ = .ok a s →
    ∀ more, x ⟨q ++ more, g⟩ = .ok a ⟨s.gameData ++ more, s.game⟩
  outOfRange : ∀ {q : List B} {g : GameState B F} {s : Handling B F},
    x ⟨q, g⟩ = .error .outOfRange s →
      ∀ more, x ⟨q ++ more, g⟩ = .error .outOfRange ⟨s.gameData ++ more, s.game⟩

theorem framed_pure {α : Type} (a : α) : Framed (pure a : Handler B F α) where
  ok := by
    intro q g b s h more
    cases h
    exact rfl
  outOfRange := by
    intro q g s h
    cases h

theorem framed_onGame (f : GameState B F → GameState B F) : Framed (onGame f) where
  ok := by
    intro q g a s h more
    cases h
    exact rfl
  outOfRange := by
    intro q g s h
    cases h

theorem framed_convert (T : Type) {n : ℕ} [FixedWidth B T n] :
    Framed (convert T : Handler B F T) where
  ok := by
    intro q g value s h more
    by_cases hlen : n ≤ q.length
    · rw [convert_ok hlen] at h
      cases h
      have hmore : n ≤ (⟨q ++ more, g⟩ : Handling B F).gameData.length := by
        dsimp only
        rw [List.length_append]
        omega
      rw [convert_ok hmore]
      dsimp only
      rw [List.take_append_of_le_length hlen, List.drop_append_of_le_length hlen]
    · rw [convert_error (s := ⟨q, g⟩) (Nat.lt_of_not_le hlen)] at h
      cases h
  outOfRange := by
    intro q g s h
    by_cases hlen : n ≤ q.length
    · rw [convert_ok hlen] at h
      cases h
    · rw [convert_error (s := ⟨q, g⟩) (Nat.lt_of_not_le hlen)] at h
      cases h

theorem framed_popQueue : Framed (onQueue popQueue : Handler B F Unit) where
  ok := by
    intro q g a s h more
    cases q with
    | nil => cases h
    | cons b rest =>
        cases h
        exact rfl
  outOfRange := by
    intro q g s h
    cases q with
    | nil => cases h
    | cons b rest => cases h

theorem Framed.bind {α β : Type} {x : Handler B F α} {f : α → Handler B F β} (hx : Framed x)
    (hf : ∀ a, Framed (f a)) : Framed (x >>= f) where
  ok := by
    intro q g b s h more
    rcases bind_eq_ok h with ⟨a, t, hfirst, hrest⟩
    rw [bind_ok (hx.ok hfirst more)]
    exact (hf a).ok hrest more
  outOfRange := by
    intro q g s h more
    cases hrun : x ⟨q, g⟩ with
    | ok a t =>
        rw [bind_ok hrun] at h
        rw [bind_ok (hx.ok hrun more)]
        exact (hf a).outOfRange h more
    | error e t =>
        rw [bind_error hrun] at h
        cases h
        exact bind_error (hx.outOfRange hrun more)

variable [ByteLike B] [FixedWidth B F 4]

omit [ByteLike B] [FixedWidth B F 4] in
theorem framed_readField (slot : Fin 7) (T : Type) {n : ℕ} [FixedWidth B T n]
    (set : ConnectedPlayer F → T → ConnectedPlayer F) :
    Framed (readField slot T set : Handler B F Unit) :=
  (framed_convert T).bind fun _ => framed_onGame _

theorem framed_readConectedPlayerSnap (slot : Fin 7) :
    Framed (readConectedPlayerSnap slot : Handler B F Unit) :=
  (framed_readField slot UInt8 _).bind fun _ =>
    (framed_readField slot UInt32 _).bind fun _ =>
    (framed_readField slot F _).bind fun _ =>
    (framed_readField slot F _).bind fun _ =>
    (framed_readField slot F _).bind fun _ =>
    (framed_readField slot F _).bind fun _ =>
    (framed_readField slot F _).bind fun _ =>
    (framed_readField slot F _).bind fun _ => framed_readField slot Int8 _

variable [Zero F] [Add F]

theorem framed_readEnemies (n : ℕ) : Framed (readEnemies n : Handler B F Unit) := by
  induction n with
  | zero => exact framed_pure ()
  | succ n ih =>
      refine (framed_convert UInt64).bind fun guid => (framed_convert F).bind fun change => ?_
      split
      · exact ih
      · exact (framed_onGame _).bind fun _ => ih

omit [Zero F] [Add F] in
theorem framed_readEntries (n : ℕ) : Framed (readEntries UInt8 n : Handler B F _) := by
  induction n with
  | zero => exact framed_pure []
  | succ n ih =>
      exact (framed_convert UInt8).bind fun item => (framed_convert F).bind fun value =>
        ih.bind fun rest => framed_pure _

variable [LT F] [DecidableLT F]

omit [ByteLike B] in
theorem framed_applyInventory (item : UInt8) (change : F) :
    Framed (applyInventory item change : Handler B F Unit) where
  ok := by
    intro q g a s h more
    unfold applyInventory at h ⊢
    dsimp only at h ⊢
    cases hget : g.mainPlayer.inventory[item.toNat]? with
    | none =>
        rw [hget] at h
        cases h
    | some entry =>
        rw [hget] at h
        cases h
        exact rfl
  outOfRange := by
    intro q g s h more
    unfold applyInventory at h ⊢
    dsimp only at h ⊢
    cases hget : g.mainPlayer.inventory[item.toNat]? with
    | none =>
        rw [hget] at h
        cases h
        exact rfl
    | some entry =>
        rw [hget] at h
        cases h

omit [ByteLike B] in
theorem framed_applyInventories (entries : List (UInt8 × F)) :
    Framed (applyInventories entries : Handler B F Unit) := by
  induction entries with
  | nil => exact framed_pure ()
  | cons entry entries ih => exact (framed_applyInventory entry.1 entry.2).bind fun _ => ih

/-- Every handler stays in its block. -/
theorem framed_handleLabel (senderID : UInt8) (label : DataLabel) :
    Framed (handleLabel senderID label : Handler B F Unit) := by
  cases label with
  | connectedPlayerSnap =>
      -- the slot is found before anything is read
      constructor
      · intro q g a s h
        exact (framed_readConectedPlayerSnap (slotOf g senderID)).ok h
      · intro q g s h
        exact (framed_readConectedPlayerSnap (slotOf g senderID)).outOfRange h
  | connectedPlayerLevel =>
      exact (framed_convert UInt32).bind fun newLevel =>
        (framed_onGame _).bind fun _ => framed_popQueue
  | enemiesHealth => exact (framed_convert UInt32).bind fun count => framed_readEnemies count.toNat
  | inventory =>
      exact (framed_convert UInt32).bind fun count =>
        (framed_readEntries count.toNat).bind fun entries => framed_applyInventories entries
  | server => exact framed_pure ()
  | other value => exact framed_pure ()

/-! ## A turn of the loop -/

section turn

variable {states : LabelStates} {senderID : UInt8} (label size : B) {rest : List B}
  {g : GameState B F}

/-- Two clients that the handler makes the same stay the same. -/
theorem Merges.read {items : ℕ}
    (h : Merges items (handleLabel senderID (.ofByte (ByteLike.toByte label)) : Handler B F Unit)
      rest) (enabled : states.processLabel (.ofByte (ByteLike.toByte label)) = true) :
    Merges items (readGameMessage states senderID : Handler B F Unit) (label :: size :: rest) := by
  rcases h with ⟨g₁, g₂, hne, hlen₁, hlen₂, heq⟩
  refine ⟨g₁, g₂, hne, hlen₁, hlen₂, ?_⟩
  cases hrun : handleLabel senderID (.ofByte (ByteLike.toByte label))
      (⟨rest, g₂⟩ : Handling B F) with
  | ok a t =>
      rw [hrun] at heq
      unfold readGameMessage
      dsimp only
      rw [List.length_cons, readBlocks]
      simp only [enabled, if_true]
      rw [bind_ok heq, bind_ok hrun]
  | error e t =>
      rw [hrun] at heq
      rw [readGameMessage_error label size enabled heq,
        readGameMessage_error label size enabled hrun]

end turn

end framed

/-! ## Messages made of blocks -/

/-- The labels for which `readGameMessage` has a handler. -/
def DataLabel.isKnown : DataLabel → Bool
  | .server => false
  | .other _ => false
  | _ => true

/-- A label byte, a size byte, and exactly that many payload bytes. -/
structure Block where
  label : UInt8
  payload : List UInt8
  short : payload.length < 256

namespace Block

def dataLabel (b : Block) : DataLabel := .ofByte b.label

def isKnown (b : Block) : Bool := b.dataLabel.isKnown

def bytes (b : Block) : List UInt8 := b.label :: UInt8.ofNat b.payload.length :: b.payload

end Block

variable {F : Type} [FixedWidth UInt8 F 4] [Zero F] [Sub F] [BEq F] [LT F] [DecidableLT F]

variable (F) in
/-- A block that a turn of `MainPlayer::write` sends. -/
def Block.Emitted (b : Block) : Prop :=
  ∃ (process : HobbitProcessAnalyzer UInt8) (ptrs : MainPlayer.BilboPtrs) (player : MainPlayer F),
    ∃ msg ∈ (MainPlayer.write process ptrs player).1, msg.message = b.bytes

omit [FixedWidth UInt8 F 4] [Zero F] [Sub F] [BEq F] [LT F] [DecidableLT F] in
/-- The label and the payload of a block that is an event. -/
theorem Block.eq_of_eventBlock {b : Block} {label size : UInt8} {count : ℕ} {entries : List UInt8}
    (h : eventBlock label size count entries = b.bytes) (hcount : count < 2 ^ 32) :
    b.label = label ∧ b.payload.length = 4 + entries.length ∧
      (FixedWidth.decode (b.payload.take 4) : UInt32).toNat = count := by
  have hpayload : b.payload = (eventBlock label size count entries).drop 2 := by
    rw [h]
    exact rfl
  refine ⟨(List.cons.inj h).1.symm, ?_, ?_⟩
  · rw [hpayload, eventBlock, List.drop_succ_cons, List.drop_succ_cons, List.drop_zero,
      List.length_append, FixedWidth.length_encode]
  · rw [hpayload]
    exact count_eventBlock label size entries hcount

/-- An emitted block has a label that is known, and its handler takes exactly the
payload. -/
theorem Block.Emitted.blockLength {b : Block} (h : b.Emitted F) :
    b.isKnown = true ∧ blockLength b.dataLabel b.payload = b.payload.length := by
  rcases h with ⟨process, ptrs, player, msg, hmsg, hbytes⟩
  have hshort := b.short
  rcases MainPlayer.mem_write hmsg with rfl | ⟨rfl, hpos⟩ | ⟨player', rfl, hpos⟩
  · have hsized := MainPlayer.sized_writeSnap (MainPlayer.processData process ptrs : Snapshot F)
      (B := UInt8)
    rcases hsized with ⟨rest, hmessage, hlength⟩
    rw [hmessage] at hbytes
    have hlabel : b.label = 1 := (List.cons.inj hbytes).1.symm
    have hpayload : b.payload = rest := (List.cons.inj (List.cons.inj hbytes).2).2.symm
    have hdata : b.dataLabel = .connectedPlayerSnap := by
      unfold dataLabel
      rw [hlabel]
      exact rfl
    rw [isKnown, hdata, hpayload, hlength]
    exact ⟨rfl, rfl⟩
  · have hmessage := MainPlayer.writeEnemiesEvent_message process player
    split at hmessage
    · rw [hmessage] at hpos
      cases hpos
    · rw [hmessage] at hbytes
      rcases eq_of_eventBlock hbytes (by omega) with ⟨hlabel, hlength, hcount⟩
      have hentries : ((reportedChanges process player.enemies).flatMap entryBytes :
          List UInt8).length = 12 * (reportedChanges process player.enemies).length :=
        length_flatMap_entryBytes _
      have hdata : b.dataLabel = .enemiesHealth := by
        unfold dataLabel
        rw [hlabel]
        exact rfl
      rw [hentries] at hlength
      rw [isKnown, hdata]
      unfold HobbitSynchrony.blockLength
      dsimp only
      rw [hcount]
      -- so few entries that the count has not been cut
      exact ⟨rfl, by omega⟩
  · have hmessage := MainPlayer.writeInventoryEvent_message process player'
    split at hmessage
    · rw [hmessage] at hpos
      cases hpos
    · have hfew := MainPlayer.length_reportedItems_le process player'.inventory
      rw [hmessage] at hbytes
      rcases eq_of_eventBlock hbytes (by omega) with ⟨hlabel, hlength, hcount⟩
      have hentries : ((MainPlayer.reportedItems process visitedItems
          player'.inventory).flatMap entryBytes : List UInt8).length =
            5 * (MainPlayer.reportedItems process visitedItems player'.inventory).length :=
        length_flatMap_entryBytes _
      have hdata : b.dataLabel = .inventory := by
        unfold dataLabel
        rw [hlabel]
        exact rfl
      rw [hentries] at hlength
      rw [isKnown, hdata]
      unfold HobbitSynchrony.blockLength
      dsimp only
      rw [hcount]
      exact ⟨rfl, hlength.symm⟩

variable [Add F]

/-- What reading has done: the exception that was thrown, and the game. -/
def outcome {B F : Type} :
    EStateM.Result GameError (Handling B F) Unit → Option GameError × GameState B F
  | .ok _ s => (none, s.game)
  | .error e s => (some e, s.game)

/-- The handlers of some blocks, each on its own payload; a disabled label has
none. -/
def processBlocks (states : LabelStates) (senderID : UInt8) :
    List Block → GameState UInt8 F → Option GameError × GameState UInt8 F
  | [], g => (none, g)
  | b :: blocks, g =>
    if states.processLabel b.dataLabel then
      match handleLabel senderID b.dataLabel ⟨b.payload, g⟩ with
      | .ok _ s => processBlocks states senderID blocks s.game
      | .error e s => (some e, s.game)
    else processBlocks states senderID blocks g

/-! ## Emitted blocks -/

omit [Sub F] [BEq F] in
/-- The items of an inventory event are the only thing that can fail when all
its entries are there. -/
theorem applyInventories_outOfRange {entries : List (UInt8 × F)} {s s' : Handling UInt8 F}
    {e : GameError} (h : applyInventories entries s = .error e s') : e = .outOfRange := by
  induction entries generalizing s with
  | nil => cases h
  | cons entry entries ih =>
      rw [applyInventories] at h
      cases hrun : applyInventory entry.1 entry.2 s with
      | ok a t =>
          rw [bind_ok hrun] at h
          exact ih h
      | error e' t =>
          rw [bind_error hrun] at h
          cases h
          unfold applyInventory at hrun
          split at hrun
          · cases hrun
            exact rfl
          · cases hrun

/-- The handler of an emitted block takes its payload, or finds an item that the
inventory does not have. -/
theorem Block.Emitted.handled {b : Block} (h : b.Emitted F) (senderID : UInt8)
    (g : GameState UInt8 F) :
    (∃ g', handleLabel senderID b.dataLabel ⟨b.payload, g⟩ = .ok () ⟨[], g'⟩) ∨
      ∃ s, handleLabel senderID b.dataLabel ⟨b.payload, g⟩ = .error .outOfRange s := by
  have hlen := h.blockLength.2
  by_cases hcomplete : Complete F g.mainPlayer.inventory.length b.dataLabel b.payload
  · rcases handleLabel_ok senderID b.dataLabel ⟨b.payload, g⟩ hcomplete with ⟨g', hrun, -⟩
    rw [hlen, List.drop_length] at hrun
    exact .inl ⟨g', hrun⟩
  · right
    have hinventory : b.dataLabel = .inventory := by
      by_contra hother
      exact hcomplete ⟨Nat.le_of_eq hlen, fun heq => absurd heq hother⟩
    rcases handleLabel_error senderID b.dataLabel ⟨b.payload, g⟩ hcomplete with ⟨e, s, herr⟩
    rw [hinventory] at hlen
    have hrun : handleLabel senderID b.dataLabel ⟨b.payload, g⟩ =
        applyInventories (namedItems F b.payload) ⟨[], g⟩ := by
      rw [hinventory]
      unfold handleLabel
      dsimp only
      rw [readProcessInventory_complete (Nat.le_of_eq hlen), hlen, List.drop_length]
    rw [hrun] at herr ⊢
    have he := applyInventories_outOfRange herr
    subst he
    exact ⟨s, herr⟩

omit [Sub F] [BEq F] in
/-- A block with a disabled label is passed over by its size byte. -/
theorem Block.skipped {states : LabelStates} {b : Block}
    (disabled : states.processLabel b.dataLabel = false) (senderID : UInt8) (more : List UInt8)
    (g : GameState UInt8 F) :
    readGameMessage states senderID ⟨b.bytes ++ more, g⟩ =
      readGameMessage states senderID ⟨more, g⟩ := by
  have hsize : (UInt8.ofNat b.payload.length).toNat = b.payload.length :=
    UInt8.toNat_ofNat_of_lt' b.short
  have hskip : readGameMessage states senderID ⟨b.bytes ++ more, g⟩ = _ :=
    readGameMessage_disabled disabled senderID (b.payload ++ more) g
  have hdrop : (b.payload ++ more).drop (ByteLike.toByte (UInt8.ofNat b.payload.length)).toNat =
      more := List.drop_left' hsize.symm
  rw [hdrop] at hskip
  exact hskip

/-- An emitted block does what its handler does with the payload alone, and the
loop goes on behind it. -/
theorem Block.Emitted.read {b : Block} (h : b.Emitted F) (states : LabelStates) (senderID : UInt8)
    (more : List UInt8) (g : GameState UInt8 F) :
    outcome (readGameMessage states senderID ⟨b.bytes ++ more, g⟩) =
      if states.processLabel b.dataLabel then
        match handleLabel senderID b.dataLabel ⟨b.payload, g⟩ with
        | .ok _ s => outcome (readGameMessage states senderID ⟨more, s.game⟩)
        | .error e s => (some e, s.game)
      else outcome (readGameMessage states senderID ⟨more, g⟩) := by
  cases henabled : states.processLabel b.dataLabel with
  | false =>
      rw [Block.skipped henabled]
      exact rfl
  | true =>
      have hframed : Framed (handleLabel senderID b.dataLabel : Handler UInt8 F Unit) :=
        framed_handleLabel senderID b.dataLabel
      rw [if_pos rfl]
      rcases h.handled senderID g with ⟨g', hrun⟩ | ⟨s, herr⟩
      · rw [hrun]
        have hstep := readGameMessage_ok b.label (UInt8.ofNat b.payload.length) henabled
          (hframed.ok hrun more) (by simp)
        exact congrArg outcome hstep
      · rw [herr]
        have hstep := readGameMessage_error b.label (UInt8.ofNat b.payload.length) henabled
          (hframed.outOfRange herr more)
        exact congrArg outcome hstep

/-! ## Bytes without effect -/

omit [Sub F] [BEq F] in
/-- An unknown label has no handler. -/
theorem handleLabel_unknown {label : DataLabel} (h : label.isKnown = false) (senderID : UInt8)
    (s : Handling UInt8 F) : handleLabel senderID label s = .ok () s := by
  cases label with
  | server => exact rfl
  | other value => exact rfl
  | connectedPlayerSnap => cases h
  | connectedPlayerLevel => cases h
  | enemiesHealth => cases h
  | inventory => cases h

variable (F) in
/-- The bytes begin with a block without effect, and these bytes follow it. An
unknown label takes itself and the byte behind it, a disabled one the block that
its size byte says; an enemies event in which no entry has a GUID and an
inventory event without entries end where their count says. -/
inductive Skips (states : LabelStates) : List UInt8 → List UInt8 → Prop
  | unknown (label size : UInt8) (rest : List UInt8)
      (enabled : states.processLabel (.ofByte label) = true)
      (unknown : (DataLabel.ofByte label).isKnown = false) :
      Skips states (label :: size :: rest) rest
  | disabled (label size : UInt8) (rest : List UInt8)
      (disabled : states.processLabel (.ofByte label) = false)
      (whole : size.toNat ≤ rest.length) :
      Skips states (label :: size :: rest) (rest.drop size.toNat)
  | enemies (label size : UInt8) (rest : List UInt8)
      (enabled : states.processLabel (.ofByte label) = true)
      (enemies : DataLabel.ofByte label = .enemiesHealth)
      (whole : blockLength .enemiesHealth rest ≤ rest.length)
      (noGUID : ∀ entry ∈ wholeEnemies F rest, entry.1 = 0) :
      Skips states (label :: size :: rest) (rest.drop (blockLength .enemiesHealth rest))
  | inventory (label size : UInt8) (rest : List UInt8)
      (enabled : states.processLabel (.ofByte label) = true)
      (inventory : DataLabel.ofByte label = .inventory)
      (whole : blockLength .inventory rest ≤ rest.length) (noItems : namedItems F rest = []) :
      Skips states (label :: size :: rest) (rest.drop (blockLength .inventory rest))

variable (F) in
/-- The bytes that are read as blocks without effect. -/
inductive Void (states : LabelStates) : List UInt8 → Prop
  | nil : Void states []
  | block {q rest : List UInt8} (skips : Skips F states q rest) (more : Void states rest) :
      Void states q

omit [Zero F] [Sub F] [BEq F] [LT F] [DecidableLT F] [Add F] in
theorem Skips.length_lt {states : LabelStates} {q rest : List UInt8} (h : Skips F states q rest) :
    rest.length < q.length := by
  cases h <;> simp only [List.length_cons, List.length_drop] <;> omega

omit [Sub F] [BEq F] in
/-- A block without effect is passed over, whatever follows it. -/
theorem Skips.read {states : LabelStates} {q rest : List UInt8} (h : Skips F states q rest)
    (senderID : UInt8) (more : List UInt8) (g : GameState UInt8 F) :
    readGameMessage states senderID ⟨q ++ more, g⟩ =
      readGameMessage states senderID ⟨rest ++ more, g⟩ := by
  cases h with
  | unknown label size rest enabled unknown =>
      have hnone : handleLabel senderID (.ofByte label) (⟨rest ++ more, g⟩ : Handling UInt8 F) =
          .ok () ⟨rest ++ more, g⟩ := handleLabel_unknown unknown senderID _
      exact readGameMessage_ok label size enabled hnone le_rfl
  | disabled label size rest disabled whole =>
      have hskip : readGameMessage states senderID ⟨label :: size :: (rest ++ more), g⟩ = _ :=
        readGameMessage_disabled disabled senderID (rest ++ more) g
      have hdrop : (rest ++ more).drop (ByteLike.toByte size).toNat =
          rest.drop size.toNat ++ more := List.drop_append_of_le_length whole
      rw [hdrop] at hskip
      exact hskip
  | enemies label size rest enabled enemies whole noGUID =>
      have hkept := readProcessEnemiesHealth_noGUID noGUID g
      rcases readProcessEnemiesHealth_ok ⟨rest, g⟩ whole with ⟨g', hrun, -⟩
      rw [hrun] at hkept
      have hg : g' = g := hkept
      subst hg
      have hmore : handleLabel senderID (.ofByte label) (⟨rest ++ more, g'⟩ : Handling UInt8 F) =
          .ok () ⟨rest.drop (blockLength .enemiesHealth rest) ++ more, g'⟩ := by
        rw [enemies]
        exact (framed_handleLabel senderID .enemiesHealth).ok hrun more
      exact readGameMessage_ok label size enabled hmore (by simp)
  | inventory label size rest enabled inventory whole noItems =>
      have hrun : handleLabel senderID .inventory (⟨rest, g⟩ : Handling UInt8 F) =
          .ok () ⟨rest.drop (blockLength .inventory rest), g⟩ := by
        unfold handleLabel
        dsimp only
        rw [readProcessInventory_complete whole, noItems]
        exact rfl
      have hmore : handleLabel senderID (.ofByte label) (⟨rest ++ more, g⟩ : Handling UInt8 F) =
          .ok () ⟨rest.drop (blockLength .inventory rest) ++ more, g⟩ := by
        rw [inventory]
        exact (framed_handleLabel senderID .inventory).ok hrun more
      exact readGameMessage_ok label size enabled hmore (by simp)

omit [Sub F] [BEq F] in
theorem Void.read {states : LabelStates} {q : List UInt8} (h : Void F states q) (senderID : UInt8)
    (more : List UInt8) (g : GameState UInt8 F) :
    readGameMessage states senderID ⟨q ++ more, g⟩ = readGameMessage states senderID ⟨more, g⟩ := by
  induction h with
  | nil => exact rfl
  | block skips _ ih => exact (skips.read senderID more g).trans ih

/-! ## Messages with unknown blocks -/

variable (F) in
/-- An unknown block that is passed over: its label is disabled, or its payload
is read as blocks without effect. -/
def Block.Harmless (states : LabelStates) (b : Block) : Prop :=
  states.processLabel b.dataLabel = false ∨ Void F states b.payload

variable (F) in
/-- Every message of emitted blocks and unknown blocks of the kind `P` does what
its emitted blocks do in their order. -/
def Absent (states : LabelStates) (P : Block → Prop) : Prop :=
  ∀ blocks : List Block,
    (∀ b ∈ blocks, b.Emitted F ∨ b.isKnown = false ∧ P b) →
    ∀ (senderID : UInt8) (g : GameState UInt8 F),
      outcome (readGameMessage states senderID ⟨blocks.flatMap Block.bytes, g⟩) =
        processBlocks states senderID (blocks.filter Block.isKnown) g

omit [Sub F] [BEq F] in
/-- A harmless block is passed over. -/
theorem Block.Harmless.passed {states : LabelStates} {b : Block} (h : b.Harmless F states)
    (hunknown : b.isKnown = false) (senderID : UInt8) (more : List UInt8)
    (g : GameState UInt8 F) :
    readGameMessage states senderID ⟨b.bytes ++ more, g⟩ =
      readGameMessage states senderID ⟨more, g⟩ := by
  cases henabled : states.processLabel b.dataLabel with
  | false => exact Block.skipped henabled senderID more g
  | true =>
      rcases h with hdisabled | hvoid
      · rw [henabled] at hdisabled
        cases hdisabled
      · -- the label and the size byte are a pair like those in the payload
        have hall : Void F states b.bytes := .block (.unknown _ _ _ henabled hunknown) hvoid
        exact hall.read senderID more g

/-- A message whose unknown blocks are harmless. -/
theorem absent_of_harmless {states : LabelStates} {P : Block → Prop}
    (h : ∀ b, b.isKnown = false → P b → b.Harmless F states) : Absent F states P := by
  intro blocks
  induction blocks with
  | nil =>
      intro _ senderID g
      exact congrArg outcome (readBlocks_nil states senderID 0 g)
  | cons b blocks ih =>
      intro hblocks senderID g
      have hrest := ih fun c hc => hblocks c (List.mem_cons_of_mem b hc)
      rw [List.flatMap_cons]
      rcases hblocks b List.mem_cons_self with hemitted | ⟨hunknown, hb⟩
      · rw [hemitted.read, List.filter_cons_of_pos hemitted.blockLength.1, processBlocks]
        simp only [hrest]
      · rw [(h b hunknown hb).passed hunknown,
          List.filter_cons_of_neg (Bool.not_eq_true _ ▸ hunknown)]
        exact hrest senderID g

/-! ## A snapshot that is read from the middle -/

/-- A game with 1 in every byte. -/
def onesProcess : HobbitProcessAnalyzer UInt8 where
  isProcessSet := true
  memory := fun _ => 1
  objectStackAddress := 0
  objectStackSize := 0

/-- The snapshot of that game; its animation is too large and is sent as 1. -/
def onesBlock : Block where
  label := 1
  payload := 1 :: 1 :: 0 :: 0 :: 0 :: List.replicate 25 1
  short := by decide

theorem load_onesProcess (address : UInt32) (n : ℕ) :
    load onesProcess.memory address n = List.replicate n 1 := by
  rw [load, List.eq_replicate_iff]
  constructor
  · simp
  · intro b hb
    rcases List.mem_map.1 hb with ⟨k, _, rfl⟩
    exact rfl

omit [FixedWidth UInt8 F 4] [Zero F] [Sub F] [BEq F] [LT F] [DecidableLT F] [Add F] in
theorem readData_onesProcess (T : Type) {n : ℕ} [FixedWidth UInt8 T n] [OfNat T 0]
    (address : UInt32) :
    onesProcess.readData T address = FixedWidth.decode (List.replicate n (1 : UInt8)) := by
  have hset : onesProcess.isProcessSet = true := rfl
  rw [readData, if_pos hset, AddressSpace.read, load_onesProcess]

/-- What `processData` reads there. -/
def onesSnapshot (F : Type) [FixedWidth UInt8 F 4] : Snapshot F where
  level := 1
  animation := 1
  animFrame := FixedWidth.decode (List.replicate 4 (1 : UInt8))
  lastAnimFrame := FixedWidth.decode (List.replicate 4 (1 : UInt8))
  position :=
    { x := FixedWidth.decode (List.replicate 4 (1 : UInt8))
      y := FixedWidth.decode (List.replicate 4 (1 : UInt8))
      z := FixedWidth.decode (List.replicate 4 (1 : UInt8)) }
  rotationY := FixedWidth.decode (List.replicate 4 (1 : UInt8))
  weapon := 1

omit [Sub F] [BEq F] [LT F] [DecidableLT F] [Add F] in
theorem processData_onesProcess (ptrs : MainPlayer.BilboPtrs) :
    MainPlayer.processData onesProcess ptrs = onesSnapshot F := by
  unfold MainPlayer.processData onesSnapshot
  simp only [readData_onesProcess]
  exact rfl

/-- Any four bytes are those of a float. -/
def AllBits (F : Type) [FixedWidth UInt8 F 4] : Prop :=
  ∀ bits : List UInt8, bits.length = 4 → FixedWidth.encode (FixedWidth.decode bits : F) = bits

omit [Zero F] [Sub F] [BEq F] [LT F] [DecidableLT F] [Add F] in
theorem snapBytes_onesSnapshot (hbits : AllBits F) :
    MainPlayer.snapBytes (onesSnapshot F) = onesBlock.payload := by
  have hfloat : (FixedWidth.encode (FixedWidth.decode (List.replicate 4 (1 : UInt8)) : F)) =
      List.replicate 4 (1 : UInt8) := hbits _ List.length_replicate
  unfold MainPlayer.snapBytes onesSnapshot
  dsimp only
  rw [hfloat]
  exact rfl

omit [Add F] in
theorem emitted_onesBlock (hbits : AllBits F) : onesBlock.Emitted F := by
  refine ⟨onesProcess, ⟨0, 0⟩, { level := 0, enemies := [], inventory := [] }, _,
    MainPlayer.writeSnap_mem_write _ _ _, ?_⟩
  rw [processData_onesProcess, MainPlayer.writeSnap_message, snapBytes_onesSnapshot hbits]
  exact rfl

variable (F) in
/-- Reading the bytes throws or changes nothing. -/
def Quiet (states : LabelStates) (q : List UInt8) : Prop :=
  ∀ (senderID : UInt8) (g : GameState UInt8 F) (s : Handling UInt8 F),
    readGameMessage states senderID ⟨q, g⟩ = .ok () s → s.game = g

section quiet

variable {states : LabelStates}

omit [Sub F] [BEq F] in
/-- Not even a label and a size byte. -/
theorem quiet_of_length_le {q : List UInt8} (h : q.length ≤ 1) : Quiet F states q := by
  intro senderID g s hrun
  match q with
  | [] =>
      cases hrun
      exact rfl
  | [label] =>
      cases hrun
      exact rfl
  | label :: size :: rest =>
      simp only [List.length_cons] at h
      omega

omit [Sub F] [BEq F] in
/-- A pair of an unknown label and a size byte, which is used if the label is
disabled. -/
theorem quiet_unknown {label size : UInt8} {rest : List UInt8}
    (hunknown : (DataLabel.ofByte label).isKnown = false) (hrest : Quiet F states rest)
    (hskipped : Quiet F states (rest.drop size.toNat)) :
    Quiet F states (label :: size :: rest) := by
  intro senderID g s hrun
  cases henabled : states.processLabel (.ofByte label) with
  | true =>
      have hnone : handleLabel senderID (.ofByte label) (⟨rest, g⟩ : Handling UInt8 F) =
          .ok () ⟨rest, g⟩ := handleLabel_unknown hunknown senderID _
      rw [readGameMessage_ok label size henabled hnone le_rfl] at hrun
      exact hrest senderID g s hrun
  | false =>
      rw [readGameMessage_disabled henabled] at hrun
      exact hskipped senderID g s hrun

omit [Sub F] [BEq F] in
/-- A snapshot that is cut off throws. -/
theorem quiet_cutSnapshot (enabled : states.processLabel .connectedPlayerSnap = true)
    (size : UInt8) {rest : List UInt8} (h : rest.length < 30) :
    Quiet F states (1 :: size :: rest) := by
  intro senderID g s hrun
  have hbroken : ¬ Complete F g.mainPlayer.inventory.length .connectedPlayerSnap rest :=
    fun hcomplete => absurd hcomplete.1 (Nat.not_le.2 h)
  rcases handleLabel_error senderID .connectedPlayerSnap ⟨rest, g⟩ hbroken with ⟨e, s', herr⟩
  have hthrows := readGameMessage_error 1 size enabled herr
  rw [hthrows] at hrun
  cases hrun

omit [Sub F] [BEq F] in
theorem quiet_ones (enabled : states.processLabel .connectedPlayerSnap = true) {n : ℕ}
    (h : n ≤ 31) : Quiet F states (List.replicate n 1) := by
  match n with
  | 0 => exact quiet_of_length_le (Nat.zero_le _)
  | 1 => exact quiet_of_length_le le_rfl
  | n + 2 =>
      refine quiet_cutSnapshot enabled 1 ?_
      rw [List.length_replicate]
      omega

omit [Sub F] [BEq F] in
/-- The snapshot without its first bytes. -/
theorem quiet_drop_onesBlock (enabled : states.processLabel .connectedPlayerSnap = true) {n : ℕ}
    (h : 0 < n) : Quiet F states (onesBlock.bytes.drop n) := by
  have hzero : (DataLabel.ofByte 0).isKnown = false := rfl
  have hones (k : ℕ) (hk : k ≤ 31) : Quiet F states (List.replicate k 1) := quiet_ones enabled hk
  -- from the last zero on
  have hsix : Quiet F states (onesBlock.bytes.drop 6) :=
    quiet_unknown hzero (hones 24 (by omega)) (hones 23 (by omega))
  have hfive : Quiet F states (onesBlock.bytes.drop 5) :=
    quiet_unknown hzero (hones 25 (by omega)) (hones 25 (by omega))
  have hfour : Quiet F states (onesBlock.bytes.drop 4) := quiet_unknown hzero hsix hsix
  have hthree : Quiet F states (onesBlock.bytes.drop 3) :=
    quiet_cutSnapshot enabled 0 (by decide)
  match n with
  | 1 =>
      have hthirty : (DataLabel.ofByte 30).isKnown = false := rfl
      exact quiet_unknown hthirty hthree hfour
  | 2 => exact quiet_cutSnapshot enabled 1 (by decide)
  | 3 => exact hthree
  | 4 => exact hfour
  | 5 => exact hfive
  | 6 => exact hsix
  | n + 7 =>
      have hdrop : onesBlock.bytes.drop (n + 7) = List.replicate (25 - n) 1 := by
        rw [Nat.add_comm, ← List.drop_drop]
        exact List.drop_replicate
      rw [hdrop]
      exact hones _ (by omega)

end quiet

/-! ## Payloads that are noticed -/

variable (F) in
/-- Some emitted blocks behind these bytes do not do what they should. -/
def Noticed (states : LabelStates) (q : List UInt8) : Prop :=
  ∃ (blocks : List Block) (senderID : UInt8) (g : GameState UInt8 F),
    (∀ b ∈ blocks, b.Emitted F) ∧
      outcome (readGameMessage states senderID ⟨q ++ blocks.flatMap Block.bytes, g⟩) ≠
        processBlocks states senderID blocks g

section noticed

variable {states : LabelStates}

/-- What follows a block without effect. -/
theorem Noticed.of_skips {q rest : List UInt8} (hskips : Skips F states q rest)
    (h : Noticed F states rest) : Noticed F states q := by
  rcases h with ⟨blocks, senderID, g, hemitted, hne⟩
  refine ⟨blocks, senderID, g, hemitted, ?_⟩
  rw [hskips.read]
  exact hne

section stuck

variable {label : UInt8} {dataLabel : DataLabel} (size : UInt8) {rest : List UInt8}

/-- The bytes alone change some client. -/
theorem noticed_of_merges (enabled : states.processLabel (.ofByte label) = true)
    (hlabel : DataLabel.ofByte label = dataLabel) {items : ℕ} {senderID : UInt8}
    (h : Merges items (handleLabel senderID dataLabel : Handler UInt8 F Unit) rest) :
    Noticed F states (label :: size :: rest) := by
  subst hlabel
  have hmerges : Merges items (readGameMessage states senderID : Handler UInt8 F Unit)
      (label :: size :: rest) := Merges.read label size h enabled
  rcases hmerges.changes with ⟨g, -, hchanged⟩
  refine ⟨[], senderID, g, List.forall_mem_nil _, ?_⟩
  rw [List.flatMap_nil, List.append_nil, processBlocks]
  intro heq
  apply hchanged
  have hgame := congrArg Prod.snd heq
  cases hrun : readGameMessage states senderID
      (⟨label :: size :: rest, g⟩ : Handling UInt8 F) with
  | ok a s =>
      rw [hrun] at hgame
      exact hgame
  | error e s =>
      rw [hrun] at hgame
      exact hgame

/-- The bytes alone make their handler throw. -/
theorem noticed_of_broken (items : ℕ) (enabled : states.processLabel (.ofByte label) = true)
    (hlabel : DataLabel.ofByte label = dataLabel) (h : ¬ Complete F items dataLabel rest) :
    Noticed F states (label :: size :: rest) := by
  subst hlabel
  let g : GameState UInt8 F := .holding (twinProcess 0) [] items
  have hlen : g.mainPlayer.inventory.length = items := List.length_replicate
  have hbroken : ¬ Complete F g.mainPlayer.inventory.length (.ofByte label) rest := by
    rw [hlen]
    exact h
  rcases handleLabel_error 0 (.ofByte label) ⟨rest, g⟩ hbroken with ⟨e, s, herr⟩
  refine ⟨[], 0, g, List.forall_mem_nil _, ?_⟩
  have hrun := readGameMessage_error label size enabled herr
  rw [List.flatMap_nil, List.append_nil, hrun, processBlocks]
  intro heq
  cases congrArg Prod.fst heq

end stuck

/-- The client that shall receive a snapshot. -/
def receiver (F : Type) [FixedWidth UInt8 F 4] [Zero F] : GameState UInt8 F :=
  .holding (twinProcess 0) [] 0

/-- A snapshot behind the bytes is not stored. -/
theorem noticed_of_lost (hbits : AllBits F)
    (enabled : states.processLabel .connectedPlayerSnap = true) {q : List UInt8}
    (h : ∀ s, readGameMessage states 0 ⟨q ++ onesBlock.bytes, receiver F⟩ = .ok () s →
      (s.game.connectedPlayers (slotOf (receiver F) 0)).hostLevel ≠ 1) : Noticed F states q := by
  refine ⟨[onesBlock], 0, receiver F, ?_, ?_⟩
  · intro b hb
    rw [List.mem_singleton.1 hb]
    exact emitted_onesBlock hbits
  · have henabled : states.processLabel onesBlock.dataLabel = true := enabled
    have hstored : handleLabel 0 onesBlock.dataLabel ⟨onesBlock.payload, receiver F⟩ =
        .ok () ⟨[], (receiver F).putSnapshot (slotOf (receiver F) 0) (onesSnapshot F)⟩ := by
      rw [← snapBytes_onesSnapshot hbits]
      exact readConectedPlayerSnap_snapBytes _ _ _
    rw [List.flatMap_singleton, processBlocks, if_pos henabled, hstored]
    dsimp only
    rw [processBlocks]
    intro heq
    cases hrun : readGameMessage states 0 (⟨q ++ onesBlock.bytes, receiver F⟩ : Handling _ F) with
    | ok a s =>
        rw [hrun] at heq
        apply h s hrun
        have hgame : s.game = _ := congrArg Prod.snd heq
        rw [hgame]
        simp [GameState.putSnapshot, ConnectedPlayer.withSnapshot, onesSnapshot]
    | error e s =>
        rw [hrun] at heq
        cases congrArg Prod.fst heq

omit [Sub F] [BEq F] [LT F] [DecidableLT F] [Add F] in
/-- Nothing has been stored in the receiver. -/
theorem receiver_hostLevel (slot : Fin 7) : ((receiver F).connectedPlayers slot).hostLevel ≠ 1 := by
  have hzero : ((receiver F).connectedPlayers slot).hostLevel = 0 := rfl
  rw [hzero]
  decide

/-- The bytes swallow the beginning of the snapshot behind them. -/
theorem noticed_of_swallowed (hbits : AllBits F)
    (enabled : states.processLabel .connectedPlayerSnap = true) {q : List UInt8} {n : ℕ}
    (hn : 0 < n)
    (h : readGameMessage states 0 ⟨q ++ onesBlock.bytes, receiver F⟩ =
      readGameMessage states 0 ⟨onesBlock.bytes.drop n, receiver F⟩) : Noticed F states q := by
  refine noticed_of_lost hbits enabled ?_
  intro s hrun
  rw [h] at hrun
  rw [quiet_drop_onesBlock enabled hn 0 _ s hrun]
  exact receiver_hostLevel _

/-- A label and a size byte that do not begin a block without effect. -/
theorem noticed_of_stuck (hbits : AllBits F)
    (enabled : states.processLabel .connectedPlayerSnap = true) {label size : UInt8}
    {rest : List UInt8} (h : ∀ rest', ¬ Skips F states (label :: size :: rest) rest') :
    Noticed F states (label :: size :: rest) := by
  cases henabled : states.processLabel (.ofByte label) with
  | false =>
      -- the size byte says more than there is
      have hsize : rest.length < size.toNat := by
        by_contra hwhole
        exact h _ (.disabled label size rest henabled (Nat.le_of_not_lt hwhole))
      have hdrop : (rest ++ onesBlock.bytes).drop size.toNat =
          onesBlock.bytes.drop (size.toNat - rest.length) := by
        rw [List.drop_append, List.drop_of_length_le (Nat.le_of_lt hsize), List.nil_append]
      refine noticed_of_swallowed hbits enabled (Nat.sub_pos_of_lt hsize) ?_
      rw [← hdrop]
      exact readGameMessage_disabled henabled 0 _ _
  | true =>
      cases hlabel : DataLabel.ofByte label with
      | server => exact absurd (.unknown label size rest henabled (by rw [hlabel]; rfl)) (h _)
      | other value => exact absurd (.unknown label size rest henabled (by rw [hlabel]; rfl)) (h _)
      | connectedPlayerSnap =>
          by_cases hrest : rest = []
          · refine noticed_of_broken size 0 henabled hlabel ?_
            rw [hrest]
            intro hcomplete
            exact absurd hcomplete.1 (by decide)
          · exact noticed_of_merges size henabled hlabel (merges_snapshot 0 0 hrest)
      | connectedPlayerLevel =>
          by_cases hrest : 4 ≤ rest.length
          · exact noticed_of_merges size henabled hlabel (merges_level 0 0 hrest)
          · refine noticed_of_broken size 0 henabled hlabel ?_
            intro hcomplete
            have hfive : 5 ≤ rest.length := hcomplete.1
            omega
      | enemiesHealth =>
          by_cases hwhole : blockLength .enemiesHealth rest ≤ rest.length
          · have hguid : ∃ entry ∈ wholeEnemies F rest, entry.1 ≠ 0 := by
              by_contra hnone
              refine h _ (.enemies label size rest henabled hlabel hwhole ?_)
              intro entry hentry
              by_contra hne
              exact hnone ⟨entry, hentry, hne⟩
            exact noticed_of_merges size henabled hlabel (merges_enemies 0 0 hguid)
          · exact noticed_of_broken size 0 henabled hlabel fun hcomplete => hwhole hcomplete.1
      | inventory =>
          refine noticed_of_broken size 0 henabled hlabel ?_
          intro hcomplete
          apply h _ (.inventory label size rest henabled hlabel hcomplete.1 ?_)
          -- in an empty inventory there is no item
          have hitems : ItemsBelow 0 (namedItems F rest) := hcomplete.2 rfl
          apply List.eq_nil_iff_forall_not_mem.2
          intro entry hentry
          exact absurd (hitems entry hentry) (Nat.not_lt_zero _)

variable (F) in
/-- The snapshot that is found from the size byte of the other one on. -/
def shiftedSnapshot : Snapshot F :=
  { onesSnapshot F with
    level := 30
    animation := 0x101
    animFrame := FixedWidth.decode [(0 : UInt8), 1, 1, 1] }

omit [Zero F] [Sub F] [BEq F] [LT F] [DecidableLT F] [Add F] in
theorem snapBytes_shiftedSnapshot (hbits : AllBits F) :
    MainPlayer.snapBytes (shiftedSnapshot F) ++ [1] = onesBlock.bytes.drop 1 := by
  have hfloat : (FixedWidth.encode (FixedWidth.decode (List.replicate 4 (1 : UInt8)) : F)) =
      List.replicate 4 (1 : UInt8) := hbits _ List.length_replicate
  have hfirst : (FixedWidth.encode (FixedWidth.decode [(0 : UInt8), 1, 1, 1] : F)) =
      [(0 : UInt8), 1, 1, 1] := hbits _ rfl
  unfold MainPlayer.snapBytes shiftedSnapshot onesSnapshot
  dsimp only
  rw [hfloat, hfirst]
  exact rfl

/-- A label without a size byte takes the label of the next block as one. -/
theorem noticed_of_single (hbits : AllBits F)
    (enabled : states.processLabel .connectedPlayerSnap = true) (label : UInt8) :
    Noticed F states [label] := by
  have hbytes : [label] ++ onesBlock.bytes = label :: 1 :: onesBlock.bytes.drop 1 := rfl
  cases henabled : states.processLabel (.ofByte label) with
  | false =>
      refine noticed_of_swallowed hbits enabled (n := 2) (by omega) ?_
      rw [hbytes]
      exact readGameMessage_disabled henabled 0 _ _
  | true =>
      have hunknown (hlabel : (DataLabel.ofByte label).isKnown = false) :
          Noticed F states [label] := by
        refine noticed_of_swallowed hbits enabled (n := 1) (by omega) ?_
        rw [hbytes]
        exact readGameMessage_ok label 1 henabled (handleLabel_unknown hlabel 0 _) le_rfl
      -- an event of 65822 entries is not there
      have hbroken (hcomplete : ¬ Complete F 0 (.ofByte label) (onesBlock.bytes.drop 1)) :
          Noticed F states [label] := by
        rcases handleLabel_error 0 (.ofByte label) ⟨onesBlock.bytes.drop 1, receiver F⟩ hcomplete
          with ⟨e, s', herr⟩
        refine noticed_of_lost hbits enabled ?_
        intro s hrun
        rw [hbytes, readGameMessage_error label 1 henabled herr] at hrun
        cases hrun
      cases hlabel : DataLabel.ofByte label with
      | server => exact hunknown (by rw [hlabel]; rfl)
      | other value => exact hunknown (by rw [hlabel]; rfl)
      | connectedPlayerSnap =>
          have hstored : handleLabel 0 (.ofByte label) ⟨onesBlock.bytes.drop 1, receiver F⟩ =
              .ok () ⟨[1], (receiver F).putSnapshot (slotOf (receiver F) 0)
                (shiftedSnapshot F)⟩ := by
            rw [hlabel, ← snapBytes_shiftedSnapshot hbits]
            exact (framed_handleLabel 0 .connectedPlayerSnap).ok
              (readConectedPlayerSnap_snapBytes _ _ _) [1]
          refine noticed_of_lost hbits enabled ?_
          intro s hrun
          rw [hbytes, readGameMessage_ok label 1 henabled hstored (by decide)] at hrun
          cases hrun
          simp [GameState.putSnapshot, ConnectedPlayer.withSnapshot, shiftedSnapshot]
      | connectedPlayerLevel =>
          have hlevel : handleLabel 0 (.ofByte label) ⟨onesBlock.bytes.drop 1, receiver F⟩ =
              .ok () ⟨onesBlock.bytes.drop 6, (receiver F).withLevel
                (FixedWidth.decode ((onesBlock.bytes.drop 1).take 4))⟩ := by
            rw [hlabel]
            exact readConectedPlayerLevel_withLevel (by decide) (receiver F)
          refine noticed_of_lost hbits enabled ?_
          intro s hrun
          rw [hbytes, readGameMessage_ok label 1 henabled hlevel (by decide)] at hrun
          rw [quiet_drop_onesBlock enabled (by omega) 0 _ s hrun]
          exact receiver_hostLevel (slotOf (receiver F) 0)
      | enemiesHealth =>
          apply hbroken
          rw [hlabel]
          intro hcomplete
          exact absurd hcomplete.1 (by decide)
      | inventory =>
          apply hbroken
          rw [hlabel]
          intro hcomplete
          exact absurd hcomplete.1 (by decide)

/-- Bytes that are not read as blocks without effect are noticed. -/
theorem noticed_of_not_void (hbits : AllBits F)
    (enabled : states.processLabel .connectedPlayerSnap = true) {q : List UInt8}
    (h : ¬ Void F states q) : Noticed F states q := by
  -- blocks without effect are taken off until there is none
  induction hn : q.length using Nat.strong_induction_on generalizing q with
  | _ n ih =>
      by_cases hskips : ∃ rest, Skips F states q rest
      · rcases hskips with ⟨rest, hskips⟩
        have hrest : ¬ Void F states rest := fun hvoid => h (.block hskips hvoid)
        exact .of_skips hskips (ih rest.length (hn ▸ hskips.length_lt) hrest rfl)
      · match q with
        | [] => exact absurd .nil h
        | [label] => exact noticed_of_single hbits enabled label
        | label :: size :: rest =>
          exact noticed_of_stuck hbits enabled fun rest' hrest' => hskips ⟨rest', hrest'⟩

end noticed

/-! ## The unknown blocks that may be in a message -/

/-- Messages do what their emitted blocks do if their unknown blocks are harmless,
and, with the label of the snapshots enabled, only if they are. -/
theorem absent_iff (hbits : AllBits F) (states : LabelStates) (P : Block → Prop) :
    ((∀ b, b.isKnown = false → P b → b.Harmless F states) → Absent F states P) ∧
      (states.processLabel .connectedPlayerSnap = true →
        (Absent F states P ↔ ∀ b, b.isKnown = false → P b → b.Harmless F states)) := by
  refine ⟨absent_of_harmless, fun enabled => ⟨?_, absent_of_harmless⟩⟩
  intro habsent b hunknown hb
  by_contra hharmful
  unfold Block.Harmless at hharmful
  rw [not_or, Bool.not_eq_false] at hharmful
  -- the payload is read, and the blocks behind it do something else
  rcases noticed_of_not_void hbits enabled hharmful.2 with ⟨blocks, senderID, g, hemitted, hne⟩
  have hmessage : ∀ c ∈ b :: blocks, c.Emitted F ∨ c.isKnown = false ∧ P c := by
    intro c hc
    rcases List.mem_cons.1 hc with rfl | hc
    · exact .inr ⟨hunknown, hb⟩
    · exact .inl (hemitted c hc)
  have hknown : (b :: blocks).filter Block.isKnown = blocks := by
    rw [List.filter_cons_of_neg (Bool.not_eq_true _ ▸ hunknown), List.filter_eq_self]
    exact fun c hc => (hemitted c hc).blockLength.1
  have hread := habsent (b :: blocks) hmessage senderID g
  have hpair : Skips F states b.bytes b.payload := .unknown _ _ _ hharmful.1 hunknown
  rw [hknown, List.flatMap_cons, hpair.read] at hread
  exact hne hread

/-- The bits of a float, kept as a number. -/
theorem allBits_bits : AllBits UInt32 := by
  intro bits hlen
  have hbytes := LittleEndian.leBytes_leNat bits
  have hlt := LittleEndian.leNat_lt bits
  rw [hlen] at hbytes hlt
  have htoBytes : FixedWidth.toBytes bits = bits := List.map_id bits
  have hofBytes : (FixedWidth.ofBytes bits : List UInt8) = bits := List.map_id bits
  change FixedWidth.ofBytes (LittleEndian.leBytes 4
    (UInt32.ofNat (LittleEndian.leNat (FixedWidth.toBytes bits))).toNat) = bits
  rw [htoBytes, UInt32.toNat_ofNat', Nat.mod_eq_of_lt (by simpa using hlt), hbytes, hofBytes]

/-- Unknown blocks without a payload. -/
theorem absent_empty : Absent UInt32 (fun _ => none) fun b => b.payload = [] := by
  apply (absent_iff allBits_bits (fun _ => none) fun b => b.payload = []).1
  intro b _ hempty
  right
  rw [hempty]
  exact .nil

/-- A block with the label 9 and the payload 1, 0: the payload is read as the label
and the size byte of a snapshot. -/
theorem unknown_block_read : ¬ Absent UInt32 (fun _ => none) fun _ => True := by
  intro habsent
  have hblocks : ∀ b ∈ [Block.mk 9 [1, 0] (by decide)],
      b.Emitted UInt32 ∨ b.isKnown = false ∧ True := by
    intro b hb
    rw [List.mem_singleton.1 hb]
    exact .inr ⟨rfl, trivial⟩
  have houtcome := congrArg Prod.fst (habsent _ hblocks 1 freshGame)
  have hthrown : (some GameError.notEnoughElements) = none := houtcome
  cases hthrown

end HobbitSynchrony
