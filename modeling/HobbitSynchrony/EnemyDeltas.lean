import HobbitSynchrony.EnemySync
import HobbitSynchrony.FailedBlocks
import HobbitSynchrony.ObjectSearch

/-! # Enemies events add up

What any number of enemies events does to a client, whatever has been recorded
before and whatever the events name. Every entry is a search through the object
stack and one through the list of enemies, over memory that the entries before
it have rewritten.

* `EnemyPlaces`: where the enemies are, and that a write to a health changes no
  search;
* `receiveEnemies`: events one after the other, whole or cut off;
* `AddedUp`: every health is the old one and the sum of what names its GUID;
* `foldl_applyEntry_addedUp`: so it is after any events;
* `enemies_add_up`: and the order of the entries makes no difference.
-/

namespace HobbitSynchrony

open AddressSpace HobbitProcessAnalyzer

variable {B F : Type} [ByteLike B] [FixedWidth B F 4]

/-! ## The events -/

section messages

variable [Zero F] [Add F]

/-- An entry of an enemies event: one without a GUID is skipped. -/
def applyEntry (g : GameState B F) (entry : UInt64 × F) : GameState B F :=
  if entry.1 = 0 then g else applyEnemyHealth entry.1 entry.2 g

/-- An event that is cut off has been applied up to there. -/
theorem gameAfter_readEnemies (n : ℕ) (q : List B) (g : GameState B F) :
    gameAfter (readEnemies n ⟨q, g⟩) =
      (entriesOf UInt64 F (min n (q.length / 12)) q).foldl applyEntry g := by
  induction n generalizing q g with
  | zero =>
      rw [Nat.zero_min]
      exact rfl
  | succ n ih =>
      by_cases hlen : 12 ≤ q.length
      · rw [readEnemies_turn hlen, ih, entriesOf_whole hlen]
        exact rfl
      · rcases readEnemies_short (Nat.lt_of_not_le hlen) n g with ⟨e, s, herr, hgame⟩
        have hzero : min (n + 1) (q.length / 12) = 0 := by omega
        rw [herr, hzero]
        exact hgame

/-- An enemies event applies the entries that are there with all their bytes. -/
theorem gameAfter_readProcessEnemiesHealth (q : List B) (g : GameState B F) :
    gameAfter (readProcessEnemiesHealth ⟨q, g⟩) = (wholeEnemies F q).foldl applyEntry g := by
  by_cases hcount : 4 ≤ q.length
  · have hlen : (q.drop 4).length = q.length - 4 := List.length_drop
    rw [readProcessEnemiesHealth, bind_ok (convert_ok (s := ⟨q, g⟩) hcount), wholeEnemies, ← hlen]
    exact gameAfter_readEnemies _ _ g
  · have hshort : (⟨q, g⟩ : Handling B F).gameData.length < 4 := Nat.lt_of_not_le hcount
    have hzero : (q.length - 4) / 12 = 0 := by omega
    rw [readProcessEnemiesHealth, bind_error (convert_error hshort), wholeEnemies, hzero,
      Nat.min_zero]
    exact rfl

/-- Enemies events one after the other, each the queue behind label and size. -/
def receiveEnemies (messages : List (List B)) (g : GameState B F) : GameState B F :=
  messages.foldl (fun g q => gameAfter (readProcessEnemiesHealth ⟨q, g⟩)) g

theorem receiveEnemies_eq (messages : List (List B)) (g : GameState B F) :
    receiveEnemies messages g = (messages.flatMap (wholeEnemies F)).foldl applyEntry g := by
  unfold receiveEnemies
  induction messages generalizing g with
  | nil => exact rfl
  | cons q messages ih =>
      rw [List.foldl_cons, ih, List.flatMap_cons, List.foldl_append,
        gameAfter_readProcessEnemiesHealth]

end messages

/-! ## Where the enemies are -/

/-- The enemies `es`, by GUID and address: each is the first object with its
GUID, and its health overlaps no other health, no slot of the object stack and
no GUID of an object in it. -/
structure EnemyPlaces (es : List (UInt64 × UInt32)) (p : HobbitProcessAnalyzer B) : Prop where
  nodup : (es.map Prod.fst).Nodup
  guid_ne_zero : ∀ e ∈ es, e.1 ≠ 0
  found : ∀ e ∈ es, e.2 ≠ 0 ∧ p.findGameObjByGUID e.1 = e.2
  apart : ∀ e ∈ es, ∀ e' ∈ es, e.1 ≠ e'.1 → Apart (healthAddress e.2) 4 (healthAddress e'.2) 4
  apart_slot : ∀ e ∈ es, ∀ slot ∈ p.slots, Apart (healthAddress e.2) 4 slot 4
  apart_guid : ∀ e ∈ es, ∀ obj ∈ p.slotObjs, Apart (healthAddress e.2) 4 (obj + 0x8) 8

namespace EnemyPlaces

variable {es : List (UInt64 × UInt32)} {p : HobbitProcessAnalyzer B} {x : UInt64} {a : UInt32}

/-- An enemy is an object of the stack. -/
theorem mem_slotObjs (h : EnemyPlaces es p) {e : UInt64 × UInt32} (he : e ∈ es) :
    e.2 ∈ p.slotObjs ∧ p.objGUID e.2 = e.1 := by
  rcases h.found e he with ⟨hne, hfound⟩
  rcases findGameObjByGUID_cases p e.1 with ⟨hzero, -⟩ | ⟨-, hmem, hguid⟩
  · exact absurd (hfound.symm.trans hzero) hne
  · rw [hfound] at hmem hguid
    exact ⟨hmem, hguid⟩

/-- There is a process to search in. -/
theorem isProcessSet (h : EnemyPlaces es p) {e : UInt64 × UInt32} (he : e ∈ es) :
    p.isProcessSet = true := by
  by_contra hset
  have hmem := (h.mem_slotObjs he).1
  rw [slotObjs_of_not_isProcessSet (Bool.eq_false_iff.2 hset)] at hmem
  cases hmem

/-- A write to a health leaves the enemies where they are. -/
theorem writeData (h : EnemyPlaces es p) (hmem : (x, a) ∈ es) (v : F) :
    EnemyPlaces es (p.writeData (healthAddress a) v) where
  nodup := h.nodup
  guid_ne_zero := h.guid_ne_zero
  found := by
    intro e he
    rw [findGameObjByGUID_writeData_of_objs (h.apart_slot _ hmem) (h.apart_guid _ hmem)]
    exact h.found e he
  apart := h.apart
  apart_slot := by
    intro e he slot hslot
    rw [slots_writeData] at hslot
    exact h.apart_slot e he slot hslot
  apart_guid := by
    intro e he obj hobj
    rw [slotObjs_writeData (h.apart_slot _ hmem)] at hobj
    exact h.apart_guid e he obj hobj

end EnemyPlaces

/-! ## One entry -/

section unlisted

variable [Zero F] [Add F] {es : List (UInt64 × UInt32)} {base : UInt64 → F} {g : GameState B F}

/-- An entry with a GUID that no listed enemy has. -/
theorem applyEnemyHealth_of_unlisted
    (hlist : g.mainPlayer.enemies = es.map fun e => (e.2, base e.1))
    (hguid : ∀ e ∈ es, g.process.objGUID e.2 = e.1) {x : UInt64} (hx : x ∉ es.map Prod.fst)
    (d : F) : applyEnemyHealth x d g = g := by
  have hnone : g.mainPlayer.enemies.findIdx? (fun e => g.process.objGUID e.1 == x) = none := by
    rw [List.findIdx?_eq_none_iff, hlist]
    intro e he
    rcases List.mem_map.1 he with ⟨e', he', rfl⟩
    rw [beq_eq_false_iff_ne, hguid e' he']
    rintro rfl
    exact hx (List.mem_map_of_mem he')
  unfold applyEnemyHealth
  simp only [hnone, ite_self]

end unlisted

section sums

variable [AddCommGroup F] {es : List (UInt64 × UInt32)} {base : UInt64 → F} {g g' : GameState B F}
  {entries : List (UInt64 × F)}

omit [ByteLike B] [FixedWidth B F 4] [AddCommGroup F] in
/-- An entry says nothing about the other enemies. -/
theorem named_append_of_ne (entries : List (UInt64 × F)) {y : UInt64} {entry : UInt64 × F}
    (h : entry.1 ≠ y) :
    (y ∈ (entries ++ [entry]).map Prod.fst ↔ y ∈ entries.map Prod.fst) ∧
      deltasOf y (entries ++ [entry]) = deltasOf y entries := by
  constructor
  · simp [h.symm]
  · simp [deltasOf, h]

omit [ByteLike B] [FixedWidth B F 4] in
theorem sum_deltasOf_append_self (x : UInt64) (d : F) :
    (deltasOf x (entries ++ [(x, d)])).sum = (deltasOf x entries).sum + d := by
  simp [deltasOf]

/-- What the entries have made of a client with the enemies `es` that has
recorded the healths `base`: an enemy that is named has the old health plus all
changes, in memory and recorded; nothing else has changed. -/
structure AddedUp (es : List (UInt64 × UInt32)) (base : UInt64 → F) (entries : List (UInt64 × F))
    (g g' : GameState B F) : Prop where
  enemies : g'.mainPlayer.enemies = es.map fun e =>
    (e.2, if e.1 ∈ entries.map Prod.fst then
      currentHealth g.process e.2 + (deltasOf e.1 entries).sum else base e.1)
  health : ∀ e ∈ es, load g'.process.memory (healthAddress e.2) 4 =
    if e.1 ∈ entries.map Prod.fst then
      FixedWidth.encode (currentHealth g.process e.2 + (deltasOf e.1 entries).sum)
    else load g.process.memory (healthAddress e.2) 4
  others : ∀ address, (∀ e ∈ es, ∀ i < 4, healthAddress e.2 + UInt32.ofNat i ≠ address) →
    g'.process.memory address = g.process.memory address
  frame : g' = { g with
    mainPlayer := { g.mainPlayer with enemies := g'.mainPlayer.enemies }
    process := { g.process with memory := g'.process.memory } }

namespace AddedUp

omit [ByteLike B] in
theorem refl (hlist : g.mainPlayer.enemies = es.map fun e => (e.2, base e.1)) :
    AddedUp es base [] g g where
  enemies := by
    simpa using hlist
  health := by
    intro e he
    simp
  others := by
    intro address haddress
    exact rfl
  frame := rfl

omit [ByteLike B] in
/-- The health of every enemy in memory. -/
theorem currentHealth_eq (h : AddedUp es base entries g g') (hp : g.process.isProcessSet)
    {e : UInt64 × UInt32} (he : e ∈ es) :
    currentHealth g'.process e.2 = currentHealth g.process e.2 + (deltasOf e.1 entries).sum := by
  have hset : g'.process.isProcessSet = true := by
    rw [h.frame]
    exact hp
  have hafter : currentHealth g'.process e.2 =
      (FixedWidth.decode (load g'.process.memory (healthAddress e.2) 4) : F) := if_pos hset
  have hbefore : currentHealth g.process e.2 =
      (FixedWidth.decode (load g.process.memory (healthAddress e.2) 4) : F) := if_pos hp
  rw [hafter, h.health e he]
  by_cases hnamed : e.1 ∈ entries.map Prod.fst
  · rw [if_pos hnamed, FixedWidth.decode_encode]
  · rw [if_neg hnamed, ← hbefore, deltasOf_eq_nil hnamed, List.sum_nil, add_zero]

omit [ByteLike B] in
/-- An entry that names no enemy of the client. -/
theorem append_unknown (h : AddedUp es base entries g g') {entry : UInt64 × F}
    (hentry : entry.1 ∉ es.map Prod.fst) : AddedUp es base (entries ++ [entry]) g g' := by
  have hnamed (e : UInt64 × UInt32) (he : e ∈ es) := named_append_of_ne entries
    (fun heq : entry.1 = e.1 => hentry (heq ▸ List.mem_map_of_mem he))
  constructor
  · rw [h.enemies]
    apply List.map_congr_left
    intro e he
    rw [(hnamed e he).2]
    simp only [(hnamed e he).1]
  · intro e he
    rw [h.health e he, (hnamed e he).2]
    simp only [(hnamed e he).1]
  · exact h.others
  · exact h.frame

/-- An entry that names the enemy at `a`: its health grows by the change. -/
theorem append_named (h : AddedUp es base entries g g') (hplaces : EnemyPlaces es g.process)
    {x : UInt64} {a : UInt32} (hmem : (x, a) ∈ es) (d : F) :
    AddedUp es base (entries ++ [(x, d)]) g
      { g' with
        mainPlayer := { g'.mainPlayer with
          enemies := es.map fun e => (e.2, if e.1 = x then currentHealth g'.process a + d
            else if e.1 ∈ entries.map Prod.fst then
              currentHealth g.process e.2 + (deltasOf e.1 entries).sum else base e.1) }
        process := g'.process.writeData (healthAddress a) (currentHealth g'.process a + d) } := by
  have hset : g'.process.isProcessSet = true := by
    rw [h.frame]
    exact hplaces.isProcessSet hmem
  have hnew := h.currentHealth_eq (hplaces.isProcessSet hmem) hmem
  dsimp only at hnew
  have hsum : currentHealth g'.process a + d =
      currentHealth g.process a + (deltasOf x (entries ++ [(x, d)])).sum := by
    rw [hnew, sum_deltasOf_append_self, add_assoc]
  have hmemory : (g'.process.writeData (healthAddress a)
      (currentHealth g'.process a + d)).memory =
        store g'.process.memory (healthAddress a)
          (FixedWidth.encode (currentHealth g'.process a + d)) := by
    unfold HobbitProcessAnalyzer.writeData
    rw [if_pos hset]
    exact rfl
  have hlen : (FixedWidth.encode (currentHealth g'.process a + d) : List B).length = 4 :=
    FixedWidth.length_encode _
  -- the enemy at `a` is the one with the GUID `x`
  have hown : ∀ e ∈ es, e.1 = x → e = (x, a) := by
    rintro ⟨y, b⟩ he rfl
    exact Prod.ext rfl ((hplaces.found _ he).2.symm.trans (hplaces.found _ hmem).2)
  constructor
  · apply List.map_congr_left
    intro e he
    by_cases hx : e.1 = x
    · obtain rfl := hown e he hx
      rw [if_pos rfl, if_pos (by simp), hsum]
    · have hother := named_append_of_ne entries (fun heq : (x, d).1 = e.1 => hx heq.symm)
      rw [if_neg hx, hother.2]
      simp only [hother.1]
  · intro e he
    dsimp only
    rw [hmemory]
    by_cases hx : e.1 = x
    · obtain rfl := hown e he hx
      have hload := load_store g'.process.memory (healthAddress a)
        (FixedWidth.encode (currentHealth g'.process a + d)) (by rw [hlen]; norm_num)
      rw [hlen] at hload
      rw [hload, if_pos (by simp), hsum]
    · have hother := named_append_of_ne entries (fun heq : (x, d).1 = e.1 => hx heq.symm)
      have hapart : Apart (healthAddress a)
          (FixedWidth.encode (currentHealth g'.process a + d) : List B).length
          (healthAddress e.2) 4 := by
        rw [hlen]
        exact hplaces.apart (x, a) hmem e he (Ne.symm hx)
      rw [load_store_of_apart hapart, h.health e he, hother.2]
      simp only [hother.1]
  · intro address haddress
    have hkept := haddress (x, a) hmem
    rw [← hlen] at hkept
    dsimp only
    rw [hmemory, store_apply_of_apart hkept, h.others address haddress]
  · have hprocess : g'.process.writeData (healthAddress a) (currentHealth g'.process a + d) =
        { g'.process with memory := (g'.process.writeData (healthAddress a)
          (currentHealth g'.process a + d)).memory } := by
      unfold HobbitProcessAnalyzer.writeData
      rw [if_pos hset]
    rw [hprocess]
    generalize (g'.process.writeData (healthAddress a) (currentHealth g'.process a + d)).memory =
      memory
    generalize (es.map fun e => (e.2, if e.1 = x then currentHealth g'.process a + d
      else if e.1 ∈ entries.map Prod.fst then
        currentHealth g.process e.2 + (deltasOf e.1 entries).sum else base e.1)) = enemies
    rw [h.frame]

/-- An entry without a GUID, with one that no enemy has, or with that of an
enemy. -/
theorem applyEntry (h : AddedUp es base entries g g') (hplaces : EnemyPlaces es g.process)
    (hplaces' : EnemyPlaces es g'.process) (entry : UInt64 × F) :
    AddedUp es base (entries ++ [entry]) g (HobbitSynchrony.applyEntry g' entry) ∧
      EnemyPlaces es (HobbitSynchrony.applyEntry g' entry).process := by
  rcases entry with ⟨x, d⟩
  -- what has been recorded so far, by GUID
  let recorded (y : UInt64) : F := if y ∈ entries.map Prod.fst then
    currentHealth g.process (g.process.findGameObjByGUID y) + (deltasOf y entries).sum else base y
  have hlist : g'.mainPlayer.enemies = es.map fun e => (e.2, recorded e.1) := by
    rw [h.enemies]
    apply List.map_congr_left
    intro e he
    dsimp only [recorded]
    rw [(hplaces.found e he).2]
  have hguid : ∀ e ∈ es, g'.process.objGUID e.2 = e.1 := fun e he => (hplaces'.mem_slotObjs he).2
  by_cases hx : x ∈ es.map Prod.fst
  · rcases List.mem_map.1 hx with ⟨⟨y, a⟩, hmem, rfl⟩
    rcases hplaces'.found _ hmem with ⟨hne, hfound⟩
    have happly := applyEnemyHealth_of_listed hlist hguid hplaces'.nodup hmem hne hfound d
    have hrecord : (es.map fun e =>
        (e.2, Function.update recorded y (currentHealth g'.process a + d) e.1)) =
          es.map fun e => (e.2, if e.1 = y then currentHealth g'.process a + d
            else if e.1 ∈ entries.map Prod.fst then
              currentHealth g.process e.2 + (deltasOf e.1 entries).sum else base e.1) := by
      apply List.map_congr_left
      intro e he
      dsimp only [recorded]
      rw [Function.update_apply, (hplaces.found e he).2]
    have hstep : HobbitSynchrony.applyEntry g' (y, d) = applyEnemyHealth y d g' :=
      if_neg (hplaces.guid_ne_zero _ hmem)
    rw [hrecord] at happly
    rw [hstep, happly]
    exact ⟨h.append_named hplaces hmem d, hplaces'.writeData hmem _⟩
  · have hstep : HobbitSynchrony.applyEntry g' (x, d) = g' := by
      unfold HobbitSynchrony.applyEntry
      split
      · exact rfl
      · exact applyEnemyHealth_of_unlisted hlist hguid hx d
    rw [hstep]
    exact ⟨h.append_unknown hx, hplaces'⟩

end AddedUp

/-! ## All entries -/

/-- After any entries. -/
theorem foldl_applyEntry_addedUp (hplaces : EnemyPlaces es g.process)
    (hlist : g.mainPlayer.enemies = es.map fun e => (e.2, base e.1))
    (entries : List (UInt64 × F)) :
    AddedUp es base entries g (entries.foldl applyEntry g) ∧
      EnemyPlaces es (entries.foldl applyEntry g).process := by
  induction entries using List.reverseRecOn with
  | nil => exact ⟨.refl hlist, hplaces⟩
  | append_singleton entries entry ih =>
      rw [List.foldl_append, List.foldl_cons, List.foldl_nil]
      exact ih.1.applyEntry hplaces ih.2 entry

omit [ByteLike B] [FixedWidth B F 4] in
theorem named_iff_of_perm {x : UInt64} (hx : x ∈ es.map Prod.fst)
    {entries₁ entries₂ : List (UInt64 × F)}
    (hperm : (entries₁.filter fun entry => entry.1 ∈ es.map Prod.fst).Perm
      (entries₂.filter fun entry => entry.1 ∈ es.map Prod.fst)) :
    (x ∈ entries₁.map Prod.fst ↔ x ∈ entries₂.map Prod.fst) ∧
      (deltasOf x entries₁).sum = (deltasOf x entries₂).sum := by
  -- the entries that are left out name other GUIDs
  have hdeltas (entries : List (UInt64 × F)) :
      deltasOf x (entries.filter fun entry => entry.1 ∈ es.map Prod.fst) = deltasOf x entries := by
    unfold deltasOf
    rw [List.filterMap_filter]
    apply List.filterMap_congr
    intro entry hentry
    by_cases hentry : entry.1 = x
    · rw [if_pos (by simpa [hentry] using hx)]
    · rw [if_neg hentry, ite_self]
  have hnamed (entries : List (UInt64 × F)) :
      x ∈ entries.map Prod.fst ↔
        x ∈ (entries.filter fun entry => entry.1 ∈ es.map Prod.fst).map Prod.fst := by
    constructor
    · intro h
      rcases List.mem_map.1 h with ⟨entry, hentry, rfl⟩
      exact List.mem_map_of_mem (List.mem_filter.2 ⟨hentry, by simpa using hx⟩)
    · intro h
      rcases List.mem_map.1 h with ⟨entry, hentry, rfl⟩
      exact List.mem_map_of_mem (List.mem_filter.1 hentry).1
  constructor
  · rw [hnamed entries₁, hnamed entries₂]
    exact (hperm.map Prod.fst).mem_iff
  · rw [← hdeltas entries₁, ← hdeltas entries₂]
    exact (hperm.filterMap _).sum_eq

omit [ByteLike B] in
/-- What has been added up does not depend on the order, nor on what names no
enemy. -/
theorem AddedUp.eq_of_perm {g₁ g₂ : GameState B F} {entries₁ entries₂ : List (UInt64 × F)}
    (h₁ : AddedUp es base entries₁ g g₁) (h₂ : AddedUp es base entries₂ g g₂)
    (hperm : (entries₁.filter fun entry => entry.1 ∈ es.map Prod.fst).Perm
      (entries₂.filter fun entry => entry.1 ∈ es.map Prod.fst)) : g₁ = g₂ := by
  have hsame (e : UInt64 × UInt32) (he : e ∈ es) :=
    named_iff_of_perm (List.mem_map_of_mem he) hperm
  have henemies : g₁.mainPlayer.enemies = g₂.mainPlayer.enemies := by
    rw [h₁.enemies, h₂.enemies]
    apply List.map_congr_left
    intro e he
    rw [(hsame e he).2]
    simp only [(hsame e he).1]
  have hmemory : g₁.process.memory = g₂.process.memory := by
    apply ext_of_load (es.map fun e => healthAddress e.2) 4
    · intro cell hcell
      rcases List.mem_map.1 hcell with ⟨e, he, rfl⟩
      rw [h₁.health e he, h₂.health e he, (hsame e he).2]
      simp only [(hsame e he).1]
    · intro address haddress
      have houtside : ∀ e ∈ es, ∀ i < 4, healthAddress e.2 + UInt32.ofNat i ≠ address :=
        fun e he => haddress _ (List.mem_map_of_mem he)
      rw [h₁.others address houtside, h₂.others address houtside]
  rw [h₁.frame, h₂.frame, henemies, hmemory]

/-- The enemies of a client add up what any events name, and the order and the
grouping of the entries make no difference. -/
theorem enemies_add_up (hplaces : EnemyPlaces es g.process)
    (hlist : g.mainPlayer.enemies = es.map fun e => (e.2, base e.1)) (messages : List (List B)) :
    (∀ e ∈ es, currentHealth (receiveEnemies messages g).process e.2 =
      currentHealth g.process e.2 + (deltasOf e.1 (messages.flatMap (wholeEnemies F))).sum) ∧
    AddedUp es base (messages.flatMap (wholeEnemies F)) g (receiveEnemies messages g) ∧
    ∀ messages' : List (List B),
      ((messages'.flatMap (wholeEnemies F)).filter fun entry => entry.1 ∈ es.map Prod.fst).Perm
        ((messages.flatMap (wholeEnemies F)).filter fun entry => entry.1 ∈ es.map Prod.fst) →
      receiveEnemies messages' g = receiveEnemies messages g := by
  have hafter (messages : List (List B)) :
      AddedUp es base (messages.flatMap (wholeEnemies F)) g (receiveEnemies messages g) := by
    rw [receiveEnemies_eq]
    exact (foldl_applyEntry_addedUp hplaces hlist _).1
  refine ⟨?_, hafter messages, ?_⟩
  · intro e he
    exact (hafter messages).currentHealth_eq (hplaces.isProcessSet he) he
  · intro messages' hperm
    exact (hafter messages').eq_of_perm (hafter messages) hperm

end sums

/-- The enemy of `arena` is where the search finds it. -/
theorem arena_places : EnemyPlaces [(7, 0x2000)] arenaClient.process where
  nodup := by decide
  guid_ne_zero := by
    intro e he
    rw [List.mem_singleton.1 he]
    decide
  found := by
    intro e he
    rw [List.mem_singleton.1 he]
    decide
  apart := by
    intro e he e' he' hne
    rw [List.mem_singleton.1 he, List.mem_singleton.1 he'] at hne
    exact absurd rfl hne
  apart_slot := arena_layout.apart_slot
  apart_guid := by
    intro e he obj hobj
    rcases List.mem_map.1 (List.mem_filter.1 hobj).1 with ⟨slot, hslot, rfl⟩
    exact arena_layout.apart_guid e he slot hslot

/-- A hit, and another one behind an entry with an unknown GUID. -/
def arenaMessages : List (List (Cell ℤ)) :=
  [FixedWidth.encode (1 : UInt32) ++ entryBytes ((7 : UInt64), (-10 : ℤ)),
    FixedWidth.encode (2 : UInt32) ++
      (entryBytes ((9 : UInt64), (-1 : ℤ)) ++ entryBytes ((7 : UInt64), (-5 : ℤ)))]

theorem enemies_add_up_arena :
    currentHealth (receiveEnemies arenaMessages arenaClient).process 0x2000 = (85 : ℤ) := by
  let base : UInt64 → ℤ := fun _ => 100
  have hlist : arenaClient.mainPlayer.enemies =
      ([(7, 0x2000)] : List (UInt64 × UInt32)).map fun e => (e.2, base e.1) := arena_layout.enemies
  have hafter := (enemies_add_up arena_places hlist arenaMessages).1 (7, 0x2000)
    List.mem_cons_self
  have hsum : (deltasOf 7 (arenaMessages.flatMap (wholeEnemies ℤ))).sum = -15 := by decide
  have hbefore : currentHealth arenaClient.process 0x2000 = (100 : ℤ) := by decide
  rw [hsum, hbefore] at hafter
  exact hafter

end HobbitSynchrony
