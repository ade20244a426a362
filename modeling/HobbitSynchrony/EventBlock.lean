import HobbitSynchrony.GameMessage

/-! # Event blocks

The layout of the block that the writers of `MainPlayer` build and its readers
take apart: a label, a size byte, a 32-bit count of which the writers only set
the low byte, and the entries.

* `eventBlock`: a block with given entries;
* `blockHead_eq`, `addSize_eventBlock`, `setCount_eq`, `setCount_eventBlock`: what
  the writers' operations on the data vector do to it;
* `entryBytes`, `eventEntries`: the bytes of a pair of a key and a change, and the
  pairs of an event;
* `entriesOf_flatMap`, `readEntries_flatMap`: bytes of pairs are taken apart again;
* `parseEntries`, `parseEntries_eventBlock`: the count of a block and its pairs, as
  the loops of the readers take them;
* `readGameMessage_eventBlock`: a message of one block is handled by its handler;
* `deltasOf`: the changes a block names for one enemy or item.
-/

namespace HobbitSynchrony

open LittleEndian

variable {B : Type} [ByteLike B]

/-- A block: the label, the size byte, the count and the bytes of the entries. -/
def eventBlock (label size : B) (count : ℕ) (entries : List B) : List B :=
  label :: size :: (FixedWidth.encode (UInt32.ofNat count) ++ entries)

/-- What follows the count of a block. -/
theorem drop_eventBlock (label size : B) (count : ℕ) (entries : List B) :
    (eventBlock label size count entries).drop 6 = entries := by
  have hcount : (FixedWidth.encode (UInt32.ofNat count) : List B).length = 4 :=
    FixedWidth.length_encode _
  rw [eventBlock, List.drop_succ_cons, List.drop_succ_cons, List.drop_left' hcount]

/-- The count of a block, as it is read back. -/
theorem count_eventBlock (label size : B) {count : ℕ} (entries : List B) (h : count < 2 ^ 32) :
    (FixedWidth.decode (((eventBlock label size count entries).drop 2).take 4) : UInt32).toNat =
      count := by
  have hcount : (FixedWidth.encode (UInt32.ofNat count) : List B).length = 4 :=
    FixedWidth.length_encode _
  rw [eventBlock, List.drop_succ_cons, List.drop_succ_cons, List.drop_zero,
    List.take_left' hcount, FixedWidth.decode_encode, UInt32.toNat_ofNat', Nat.mod_eq_of_lt h]

/-- The payload of an event, if there is data in it: `write` and `writeMessage`
pass over events without. -/
def sentPayload (msg : BaseMessage B) : Option (List B) :=
  if 0 < msg.message.length then some msg.message else none

omit [ByteLike B] in
theorem sentPayload_nil {msg : BaseMessage B} (h : msg.message = []) : sentPayload msg = none := by
  rw [sentPayload, h]
  rfl

theorem sentPayload_eventBlock {msg : BaseMessage B} {label size : B} {count : ℕ}
    {entries : List B} (h : msg.message = eventBlock label size count entries) :
    sentPayload msg = some (eventBlock label size count entries) := by
  have hpos : 0 < (eventBlock label size count entries).length := Nat.zero_lt_succ _
  rw [sentPayload, h, if_pos hpos]

namespace MainPlayer

theorem blockHead_eq (label : DataLabel) :
    (blockHead label : List B) =
      eventBlock (ByteLike.ofByte label.toByte) (ByteLike.ofByte 4) 0 [] := by
  simp [blockHead, addSize, pushTypeToVector, eventBlock]

/-- `dataVec[1] += size` changes the size byte only. -/
theorem addSize_eventBlock (k : UInt8) (label size : B) (count : ℕ) (entries : List B) :
    addSize k (eventBlock label size count entries) =
      eventBlock label (ByteLike.ofByte (ByteLike.toByte size + k)) count entries := rfl

/-- Pushing onto a block puts the bytes behind its entries. -/
theorem pushTypeToVector_eventBlock {T : Type} {n : ℕ} [FixedWidth B T n] (value : T)
    (label size : B) (count : ℕ) (entries : List B) :
    pushTypeToVector value (eventBlock label size count entries) =
      eventBlock label size count (entries ++ FixedWidth.encode value) := by
  simp [pushTypeToVector, eventBlock]

/-- The bytes of a small count. -/
theorem encode_count {count : ℕ} (h : count < 256) :
    (FixedWidth.encode (UInt32.ofNat count) : List B) =
      [ByteLike.ofByte (UInt8.ofNat count), ByteLike.ofByte 0, ByteLike.ofByte 0,
        ByteLike.ofByte 0] := by
  have hmod : (UInt32.ofNat count).toNat = count := by
    rw [UInt32.toNat_ofNat', Nat.mod_eq_of_lt (by omega)]
  have hzero : count / 256 = 0 := Nat.div_eq_of_lt h
  show FixedWidth.ofBytes (leBytes 4 (UInt32.ofNat count).toNat) = _
  rw [hmod]
  simp [leBytes, FixedWidth.ofBytes, hzero]

/-- `dataVec[2] = count` sets the count, as long as it fits into one byte. -/
theorem setCount_eq {count : ℕ} (h : count < 256) (label size : B) (entries : List B) :
    setCount (UInt32.ofNat count) (eventBlock label size 0 entries) =
      eventBlock label size count entries := by
  -- the low byte of the count is the whole of it
  have hbyte : (UInt32.ofNat count).toUInt8 = UInt8.ofNat count := by
    apply UInt8.toNat_inj.1
    rw [UInt32.toNat_toUInt8, UInt32.toNat_ofNat', UInt8.toNat_ofNat']
    omega
  rw [setCount, eventBlock, eventBlock, encode_count h, encode_count (by decide), hbyte]
  rfl

/-- `dataVec[2] = count` sets the count to its low byte. -/
theorem setCount_eventBlock (count : UInt32) (label size : B) (entries : List B) :
    setCount count (eventBlock label size 0 entries) =
      eventBlock label size (count.toNat % 256) entries := by
  have hbyte : (UInt32.ofNat (count.toNat % 256)).toUInt8 = count.toUInt8 := by
    apply UInt8.toNat_inj.1
    rw [UInt32.toNat_toUInt8, UInt32.toNat_ofNat', UInt32.toNat_toUInt8]
    omega
  have hlow := setCount_eq (Nat.mod_lt count.toNat (by decide : 256 > 0)) label size entries
  unfold setCount at hlow ⊢
  rw [hbyte] at hlow
  exact hlow

/-- One more entry in the count of the loops. -/
theorem count_succ (send : UInt32) (k : ℕ) :
    send + 1 + UInt32.ofNat k = send + UInt32.ofNat (k + 1) := by
  rw [UInt32.add_assoc, UInt32.ofNat_add, UInt32.add_comm (UInt32.ofNat k)]
  rfl

end MainPlayer

/-! ## Pairs of a key and a change -/

section pairs

variable {K F : Type} {k : ℕ} [FixedWidth B K k] [FixedWidth B F 4]

/-- The bytes of a pair. -/
def entryBytes (entry : K × F) : List B :=
  FixedWidth.encode entry.1 ++ FixedWidth.encode entry.2

variable (K F) in
/-- The pairs of an event: as many as its count says. -/
def eventEntries (payload : List B) : List (K × F) :=
  entriesOf K F (FixedWidth.decode ((payload.drop 2).take 4) : UInt32).toNat (payload.drop 6)

omit [ByteLike B] in
@[simp] theorem length_entryBytes (entry : K × F) : (entryBytes entry : List B).length = k + 4 := by
  rw [entryBytes, List.length_append, FixedWidth.length_encode, FixedWidth.length_encode]

omit [ByteLike B] in
theorem length_flatMap_entryBytes (entries : List (K × F)) :
    (entries.flatMap entryBytes : List B).length = (k + 4) * entries.length := by
  rw [List.length_flatMap]
  simp [Nat.mul_comm]

omit [ByteLike B] in
/-- The bytes of pairs are taken apart into these pairs. -/
theorem entriesOf_flatMap (entries : List (K × F)) (rest : List B) :
    entriesOf K F entries.length (entries.flatMap entryBytes ++ rest) = entries := by
  induction entries with
  | nil => rfl
  | cons entry entries ih =>
      have hkey : (FixedWidth.encode entry.1 : List B).length = k := FixedWidth.length_encode _
      have hchange : (FixedWidth.encode entry.2 : List B).length = 4 := FixedWidth.length_encode _
      have htail : ((entry :: entries).flatMap entryBytes ++ rest).drop (k + 4) =
          entries.flatMap entryBytes ++ rest := by
        rw [List.flatMap_cons, List.append_assoc, List.drop_left' (length_entryBytes entry)]
      have hsplit : (entry :: entries).flatMap entryBytes ++ rest =
          (FixedWidth.encode entry.1 : List B) ++
            (FixedWidth.encode entry.2 ++ (entries.flatMap entryBytes ++ rest)) := by
        rw [List.flatMap_cons, entryBytes, List.append_assoc, List.append_assoc]
      rw [List.length_cons, entriesOf, htail, ih, hsplit, List.take_left' hkey,
        List.drop_left' hkey, List.take_left' hchange, FixedWidth.decode_encode,
        FixedWidth.decode_encode]

/-- The pairs of an event are those its block was made of. -/
theorem eventEntries_eventBlock (label size : B) {entries : List (K × F)}
    (h : entries.length < 2 ^ 32) :
    eventEntries K F (eventBlock label size entries.length (entries.flatMap entryBytes)) =
      entries := by
  have hparse := entriesOf_flatMap (B := B) entries []
  rw [List.append_nil] at hparse
  rw [eventEntries, count_eventBlock label size _ h, drop_eventBlock, hparse]

omit [ByteLike B] in
/-- The loop of a reader takes them off the queue. -/
theorem readEntries_flatMap (entries : List (K × F)) (rest : List B) (g : GameState B F) :
    readEntries K entries.length ⟨entries.flatMap entryBytes ++ rest, g⟩ =
      .ok entries ⟨rest, g⟩ := by
  have hlen : (entries.flatMap entryBytes : List B).length = (k + 4) * entries.length :=
    length_flatMap_entryBytes entries
  have henough : (k + 4) * entries.length ≤ (entries.flatMap entryBytes ++ rest).length := by
    rw [List.length_append, hlen]
    exact Nat.le_add_right _ _
  rw [readEntries_ok K entries.length _ henough]
  dsimp only
  rw [entriesOf_flatMap, List.drop_left' hlen]

end pairs

/-! ## Events with given entries -/

section events

variable {E : Type} {label : B} {bytes : E → List B} {entries : List E} {msg : BaseMessage B}

/-- The message is the event with these entries; without any it is empty. -/
def IsEvent (label : B) (bytes : E → List B) (entries : List E) (msg : BaseMessage B) : Prop :=
  entries = [] ∧ msg.message = [] ∨
    ∃ size, msg.message = eventBlock label size entries.length (entries.flatMap bytes)

/-- The end of both writers: the count is set, and a message without entries is
dropped. -/
theorem isEvent_setCount (hlt : entries.length < 256) (label size : B) (bytes : E → List B) :
    IsEvent label bytes entries
      (if 0 < UInt32.ofNat entries.length then
        { messageType := eventMessage, senderID := 0,
          message := MainPlayer.setCount (UInt32.ofNat entries.length)
            (eventBlock label size 0 (entries.flatMap bytes)) }
      else BaseMessage.empty B) := by
  by_cases hnone : entries = []
  · left
    subst hnone
    exact ⟨rfl, rfl⟩
  · right
    -- fewer than 256 entries: the count does not wrap to 0
    have hpos : (0 : UInt32) < UInt32.ofNat entries.length := by
      have hlen := List.length_pos_of_ne_nil hnone
      rw [UInt32.lt_iff_toNat_lt, UInt32.toNat_ofNat', Nat.mod_eq_of_lt (by omega)]
      exact hlen
    rw [if_pos hpos]
    exact ⟨size, MainPlayer.setCount_eq hlt label size _⟩

/-- What is sent of an event is the block with its entries. -/
theorem IsEvent.sent (h : IsEvent label bytes entries msg) {parse : List B → List E}
    (hparse : ∀ size, parse (eventBlock label size entries.length (entries.flatMap bytes)) =
      entries) :
    (∀ payload ∈ sentPayload msg,
      ∃ size, payload = eventBlock label size entries.length (entries.flatMap bytes)) ∧
      (sentPayload msg).toList.flatMap parse = entries := by
  rcases h with ⟨hnone, hmsg⟩ | ⟨size, hmsg⟩
  · -- no entries, so nothing is sent
    rw [sentPayload_nil hmsg, hnone]
    refine ⟨?_, rfl⟩
    intro payload hpayload
    cases hpayload
  · rw [sentPayload_eventBlock hmsg]
    constructor
    · intro payload hpayload
      exact ⟨size, (Option.some.inj hpayload).symm⟩
    · rw [Option.toList_some, List.flatMap_singleton]
      exact hparse size

end events

/-! ## Reading a block -/

omit [ByteLike B] in
/-- A value at the front of the queue is read and taken off it. -/
theorem convert_encode {F T : Type} {n : ℕ} [FixedWidth B T n] (value : T) (rest : List B)
    (game : GameState B F) :
    convert T ⟨FixedWidth.encode value ++ rest, game⟩ = .ok value ⟨rest, game⟩ := by
  rw [convert, onQueue]
  simp only [convertQueueToType_encode]

section parsing

variable {K F : Type} {k : ℕ} [FixedWidth B K k] [FixedWidth B F 4]

/-- The count, and the pairs behind it. -/
def parseEntries (K : Type) {k : ℕ} [FixedWidth B K k] : Handler B F (List (K × F)) := do
  let number ← convert UInt32
  readEntries K number.toNat

omit [ByteLike B] in
/-- As many pairs are read as asked for. -/
theorem length_readEntries {n : ℕ} {s s' : Handling B F} {entries : List (K × F)}
    (h : readEntries K n s = .ok entries s') : entries.length = n := by
  induction n generalizing s entries s' with
  | zero =>
      cases h
      exact rfl
  | succ n ih =>
      unfold readEntries at h
      rcases bind_eq_ok h with ⟨key, t, -, h⟩
      rcases bind_eq_ok h with ⟨change, t', -, h⟩
      rcases bind_eq_ok h with ⟨rest, t'', hrest, h⟩
      cases h
      rw [List.length_cons, ih hrest]

/-- The count and the pairs behind it are taken apart. -/
theorem parseEntries_flatMap {entries : List (K × F)} (h : entries.length < 2 ^ 32)
    (g : GameState B F) :
    parseEntries K
        ⟨FixedWidth.encode (UInt32.ofNat entries.length) ++ entries.flatMap entryBytes, g⟩ =
      .ok entries ⟨[], g⟩ := by
  have hcount : (UInt32.ofNat entries.length).toNat = entries.length := by
    rw [UInt32.toNat_ofNat', Nat.mod_eq_of_lt h]
  have hread := readEntries_flatMap entries [] g
  rw [List.append_nil] at hread
  rw [parseEntries, bind_ok (convert_encode _ _ _), hcount, hread]

/-- A block is taken apart into the pairs it was made of. -/
theorem parseEntries_eventBlock (label size : B) {entries : List (K × F)}
    (h : entries.length < 2 ^ 32) (g : GameState B F) :
    parseEntries K
        ⟨(eventBlock label size entries.length (entries.flatMap entryBytes)).drop 2, g⟩ =
      .ok entries ⟨[], g⟩ := by
  rw [eventBlock, List.drop_succ_cons, List.drop_succ_cons, List.drop_zero]
  exact parseEntries_flatMap h g

/-- A block gives as many pairs as its count says. -/
theorem length_parseEntries {label size : B} {count : ℕ} (hcount : count < 2 ^ 32)
    {bytes : List B} {g : GameState B F} {entries : List (K × F)} {s : Handling B F}
    (h : parseEntries K ⟨(eventBlock label size count bytes).drop 2, g⟩ = .ok entries s) :
    entries.length = count := by
  rw [eventBlock, List.drop_succ_cons, List.drop_succ_cons, List.drop_zero, parseEntries,
    bind_ok (convert_encode _ _ _)] at h
  rw [length_readEntries h, UInt32.toNat_ofNat', Nat.mod_eq_of_lt hcount]

end parsing

/-- A message of one block with an enabled label goes to the handler of the
label, and if that one takes the whole block nothing else happens. -/
theorem readGameMessage_eventBlock {F : Type} [FixedWidth B F 4] [Zero F] [Add F] [LT F]
    [DecidableLT F] {states : LabelStates} {senderID : UInt8} {label : DataLabel}
    {labelByte size : B} {count : ℕ} {entries : List B} {g g' : GameState B F}
    (hlabel : DataLabel.ofByte (ByteLike.toByte labelByte) = label)
    (enabled : states.processLabel label = true)
    (hrun : handleLabel senderID label
      ⟨FixedWidth.encode (UInt32.ofNat count) ++ entries, g⟩ = .ok () ⟨[], g'⟩) :
    readGameMessage states senderID ⟨eventBlock labelByte size count entries, g⟩ =
      .ok () ⟨[], g'⟩ := by
  subst hlabel
  rw [eventBlock, readGameMessage_ok labelByte size enabled hrun (Nat.zero_le _)]
  exact readBlocks_nil states senderID 0 g'

/-! ## The entries for one key -/

section deltas

variable {K F : Type} [DecidableEq K] {key : K}

/-- The changes that the entries name for one key. -/
def deltasOf (key : K) (entries : List (K × F)) : List F :=
  entries.filterMap fun entry => if entry.1 = key then some entry.2 else none

theorem deltasOf_cons_self (change : F) (entries : List (K × F)) :
    deltasOf key ((key, change) :: entries) = change :: deltasOf key entries := by
  simp [deltasOf]

theorem deltasOf_cons_of_ne {entry : K × F} (h : entry.1 ≠ key) (entries : List (K × F)) :
    deltasOf key (entry :: entries) = deltasOf key entries := by
  simp [deltasOf, h]

theorem deltasOf_eq_nil {entries : List (K × F)} (h : key ∉ entries.map Prod.fst) :
    deltasOf key entries = [] := by
  rw [deltasOf, List.filterMap_eq_nil_iff]
  intro entry hentry
  exact if_neg fun heq => h (List.mem_map.2 ⟨entry, hentry, heq⟩)

/-- A list that names every key at most once. -/
theorem deltasOf_of_nodup {entries : List (K × F)} (hnodup : (entries.map Prod.fst).Nodup) :
    deltasOf key entries = [] ∨ ∃ change, (key, change) ∈ entries ∧
      deltasOf key entries = [change] := by
  induction entries with
  | nil => exact Or.inl rfl
  | cons entry entries ih =>
      rw [List.map_cons, List.nodup_cons] at hnodup
      by_cases hkey : entry.1 = key
      · -- no later entry names the key
        subst hkey
        refine Or.inr ⟨entry.2, List.mem_cons_self, ?_⟩
        exact (deltasOf_cons_self entry.2 entries).trans
          (congrArg _ (deltasOf_eq_nil hnodup.1))
      · rw [deltasOf_cons_of_ne hkey]
        rcases ih hnodup.2 with hnone | ⟨change, hmem, hone⟩
        · exact Or.inl hnone
        · exact Or.inr ⟨change, List.mem_cons_of_mem entry hmem, hone⟩

theorem deltasOf_flatMap {α : Type} (l : List α) (f : α → List (K × F)) :
    deltasOf key (l.flatMap f) = l.flatMap fun a => deltasOf key (f a) :=
  List.filterMap_flatMap

/-- A list that names the keys of `keys` that meet `p` names each once. -/
theorem deltasOf_map_filter {keys : List K} (hnodup : keys.Nodup) (p : K → Bool) (f : K → F) :
    deltasOf key ((keys.filter p).map fun k => (k, f k)) =
      if key ∈ keys ∧ p key = true then [f key] else [] := by
  induction keys with
  | nil => simp [deltasOf]
  | cons k keys ih =>
      rw [List.nodup_cons] at hnodup
      have ih := ih hnodup.2
      by_cases hk : k = key
      · subst hk
        rw [if_neg fun h => hnodup.1 h.1] at ih
        by_cases hp : p k = true
        · rw [List.filter_cons_of_pos hp, List.map_cons, deltasOf_cons_self, ih,
            if_pos ⟨List.mem_cons_self, hp⟩]
        · rw [List.filter_cons_of_neg hp, ih, if_neg fun h => hp h.2]
      · have hmem : key ∈ k :: keys ↔ key ∈ keys := by
          rw [List.mem_cons]
          exact or_iff_right fun heq => hk heq.symm
        simp only [hmem]
        by_cases hp : p k = true
        · rw [List.filter_cons_of_pos hp, List.map_cons, deltasOf_cons_of_ne hk, ih]
        · rw [List.filter_cons_of_neg hp, ih]

end deltas

end HobbitSynchrony
