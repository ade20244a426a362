import HobbitSynchrony.Lib.EventRelay
import HobbitSynchrony.EnemyEvent

/-! # Enemy healths on all clients

Clients that change the healths of the same enemies and tell each other. An
event is applied to the health in memory, and the result is recorded as told;
so what the game has changed since the last report is recorded as told too,
and is never reported.

* `EnemyList`, `EnemyLayout`: the enemies of a client, their objects in memory
  and what is recorded of them;
* `applyEnemyHealth_eq`, `applyEnemies_synced`: what an event does;
* `enemyPeer`, `enemyView`: the clients, and one enemy's health on them;
* `enemies_converge`: the healths agree at rest, if every event finds the
  healths it names as they were recorded;
* `pending_hit_lost`: a hit that is lost otherwise.
-/

namespace HobbitSynchrony

open AddressSpace Transition

variable {B F : Type} [ByteLike B]

/-! ## The enemies of a client -/

/-- The listed enemy with a GUID: its address and the recorded health. -/
def enemyOf (g : GameState B F) (guid : UInt64) : Option (UInt32 × F) :=
  g.mainPlayer.enemies.find? fun e => g.process.objGUID e.1 == guid

/-- The health of an enemy in the game's memory. -/
def health [FixedWidth B F 4] [AddCommGroup F] (guid : UInt64) (g : GameState B F) : F :=
  match enemyOf g guid with
  | some e => currentHealth g.process e.1
  | none => 0

/-- The recorded health of an enemy. -/
def baseline [AddCommGroup F] (guid : UInt64) (g : GameState B F) : F :=
  match enemyOf g guid with
  | some e => e.2
  | none => 0

/-- The enemies `es`, by GUID and address, are those of `guids`; each has a
place of its own for its health. -/
structure EnemyList (guids : List UInt64) (es : List (UInt64 × UInt32)) : Prop where
  mem_iff : ∀ guid, guid ∈ es.map Prod.fst ↔ guid ∈ guids
  nodup : (es.map Prod.fst).Nodup
  guid_ne_zero : ∀ e ∈ es, e.1 ≠ 0
  addrs_ne_zero : ∀ e ∈ es, e.2 ≠ 0
  apart : ∀ e ∈ es, ∀ e' ∈ es, e.1 ≠ e'.1 → Apart (healthAddress e.2) 4 (healthAddress e'.2) 4

/-- The client lists the enemies `es` with the recorded healths `base`. Its
searches find them, and their healths overlap neither the object stack nor a
GUID. -/
structure EnemyLayout (es : List (UInt64 × UInt32)) (base : UInt64 → F) (g : GameState B F) :
    Prop where
  isProcessSet : g.process.isProcessSet
  enemies : g.mainPlayer.enemies = es.map fun e => (e.2, base e.1)
  guid : ∀ e ∈ es, g.process.objGUID e.2 = e.1
  found : ∀ e ∈ es, g.process.findGameObjByGUID e.1 = e.2
  apart_slot : ∀ e ∈ es, ∀ slot ∈ g.process.slots, Apart (healthAddress e.2) 4 slot 4
  apart_guid : ∀ e ∈ es, ∀ slot ∈ g.process.slots,
    Apart (healthAddress e.2) 4 (g.process.objAddrs slot + 0x8) 8
  apart_own : ∀ e ∈ es, ∀ e' ∈ es, Apart (healthAddress e.2) 4 (e'.2 + 0x8) 8

section lists

variable {guidOf : UInt32 → UInt64} {es : List (UInt64 × UInt32)} {base : UInt64 → F} {x : UInt64}
  {a : UInt32}

/-- The first listed enemy with a GUID, found by its place in the list. -/
theorem findIdx?_enemy (hguid : ∀ e ∈ es, guidOf e.2 = e.1) (hnodup : (es.map Prod.fst).Nodup)
    (hmem : (x, a) ∈ es) (v : F) :
    ∃ k, (es.map fun e => (e.2, base e.1)).findIdx? (fun e => guidOf e.1 == x) = some k ∧
      (es.map fun e => (e.2, base e.1))[k]? = some (a, base x) ∧
      (es.map fun e => (e.2, base e.1)).set k (a, v) =
        es.map fun e => (e.2, Function.update base x v e.1) := by
  induction es with
  | nil => cases hmem
  | cons e es ih =>
      rw [List.map_cons, List.nodup_cons] at hnodup
      have hhead := hguid e List.mem_cons_self
      by_cases hx : e.1 = x
      · -- the first one; no other has this GUID
        have hrest : ∀ e' ∈ es, e'.1 ≠ x := by
          intro e' he' heq
          exact hnodup.1 (List.mem_map.2 ⟨e', he', heq.trans hx.symm⟩)
        have hea : e = (x, a) := by
          rcases List.mem_cons.1 hmem with heq | htail
          · exact heq.symm
          · exact absurd rfl (hrest _ htail)
        subst hea
        refine ⟨0, ?_, rfl, ?_⟩
        · rw [List.map_cons, List.findIdx?_cons, if_pos (beq_iff_eq.2 hhead)]
        · rw [List.map_cons, List.map_cons, List.set_cons_zero, Function.update_self]
          congr 1
          apply List.map_congr_left
          intro e' he'
          rw [Function.update_of_ne (hrest e' he')]
      · have htail : (x, a) ∈ es := by
          rcases List.mem_cons.1 hmem with heq | htail
          · exact absurd (congrArg Prod.fst heq).symm hx
          · exact htail
        rcases ih (fun e' he' => hguid e' (List.mem_cons_of_mem e he')) hnodup.2 htail with
          ⟨k, hfind, hget, hset⟩
        refine ⟨k + 1, ?_, ?_, ?_⟩
        · rw [List.map_cons, List.findIdx?_cons, if_neg (by simpa [hhead] using hx), hfind]
          rfl
        · rw [List.map_cons, List.getElem?_cons_succ, hget]
        · rw [List.map_cons, List.map_cons, List.set_cons_succ, hset, Function.update_of_ne hx]

theorem find?_enemy (hguid : ∀ e ∈ es, guidOf e.2 = e.1) (hnodup : (es.map Prod.fst).Nodup)
    (hmem : (x, a) ∈ es) :
    (es.map fun e => (e.2, base e.1)).find? (fun e => guidOf e.1 == x) = some (a, base x) := by
  rcases findIdx?_enemy hguid hnodup hmem (base x) with ⟨k, hfind, hget, -⟩
  rw [List.find?_eq_bind_findIdx?_getElem?, hfind]
  exact hget

end lists

section layout

variable {guids : List UInt64} {es : List (UInt64 × UInt32)} {base : UInt64 → F}
  {g : GameState B F} {x : UInt64} {a : UInt32}

theorem enemyOf_eq (hE : EnemyList guids es) (hL : EnemyLayout es base g)
    (hmem : (x, a) ∈ es) : enemyOf g x = some (a, base x) := by
  rw [enemyOf, hL.enemies]
  exact find?_enemy hL.guid hE.nodup hmem

/-- Recording other healths. -/
theorem EnemyLayout.record (hL : EnemyLayout es base g) (base' : UInt64 → F) :
    EnemyLayout es base'
      { g with mainPlayer := { g.mainPlayer with enemies := es.map fun e => (e.2, base' e.1) } } :=
  { hL with enemies := rfl }

variable [FixedWidth B F 4]

/-- A write to a health leaves the objects where they are. -/
theorem EnemyLayout.write (hL : EnemyLayout es base g) (hmem : (x, a) ∈ es) (v : F) :
    EnemyLayout es base
      { g with process := g.process.writeData (healthAddress a) v } where
  isProcessSet := by
    rw [HobbitProcessAnalyzer.isProcessSet_writeData]
    exact hL.isProcessSet
  enemies := hL.enemies
  guid := by
    intro e he
    rw [← hL.guid e he]
    exact HobbitProcessAnalyzer.readData_writeData_of_apart (hL.apart_own _ hmem e he)
  found := by
    intro e he
    rw [← hL.found e he]
    exact HobbitProcessAnalyzer.findGameObjByGUID_writeData (hL.apart_slot _ hmem)
      (hL.apart_guid _ hmem) e.1
  apart_slot := by
    intro e he slot hslot
    rw [HobbitProcessAnalyzer.slots_writeData] at hslot
    exact hL.apart_slot e he slot hslot
  apart_guid := by
    intro e he slot hslot
    rw [HobbitProcessAnalyzer.slots_writeData] at hslot
    -- a slot still points to its object
    have hobj : (g.process.writeData (healthAddress a) v).objAddrs slot =
        g.process.objAddrs slot :=
      HobbitProcessAnalyzer.readData_writeData_of_apart (hL.apart_slot _ hmem slot hslot)
    rw [hobj]
    exact hL.apart_guid e he slot hslot
  apart_own := hL.apart_own

variable [AddCommGroup F]

theorem health_eq (hE : EnemyList guids es) (hL : EnemyLayout es base g) (hmem : (x, a) ∈ es) :
    health x g = currentHealth g.process a := by
  rw [health, enemyOf_eq hE hL hmem]

omit [FixedWidth B F 4] in
theorem baseline_eq (hE : EnemyList guids es) (hL : EnemyLayout es base g)
    (hmem : x ∈ es.map Prod.fst) : baseline x g = base x := by
  rcases List.mem_map.1 hmem with ⟨⟨x', a⟩, hxa, rfl⟩
  rw [baseline, enemyOf_eq hE hL hxa]

/-- A write to a health changes this one and no other. -/
theorem currentHealth_write (hE : EnemyList guids es) (hL : EnemyLayout es base g)
    (hmem : (x, a) ∈ es) (v : F) {y : UInt64} {b : UInt32} (hmem' : (y, b) ∈ es) :
    currentHealth (g.process.writeData (healthAddress a) v) b =
      if y = x then v else currentHealth g.process b := by
  by_cases hy : y = x
  · subst hy
    -- one GUID is found at one address
    have hab : b = a := (hL.found _ hmem').symm.trans (hL.found _ hmem)
    subst hab
    rw [if_pos rfl]
    exact HobbitProcessAnalyzer.readData_writeData _ _ _ hL.isProcessSet (by norm_num)
  · have hapart : Apart (healthAddress a) 4 (healthAddress b) 4 :=
      hE.apart (x, a) hmem (y, b) hmem' fun heq => hy heq.symm
    rw [if_neg hy, currentHealth, currentHealth]
    exact HobbitProcessAnalyzer.readData_writeData_of_apart hapart

/-- An entry with the GUID of a listed enemy, if the search finds that one. -/
theorem applyEnemyHealth_of_listed
    (hlist : g.mainPlayer.enemies = es.map fun e => (e.2, base e.1))
    (hguid : ∀ e ∈ es, g.process.objGUID e.2 = e.1) (hnodup : (es.map Prod.fst).Nodup)
    (hmem : (x, a) ∈ es) (haddrs : a ≠ 0) (hfound : g.process.findGameObjByGUID x = a) (d : F) :
    applyEnemyHealth x d g = { g with
      mainPlayer := { g.mainPlayer with enemies := es.map fun e =>
        (e.2, Function.update base x (currentHealth g.process a + d) e.1) }
      process := g.process.writeData (healthAddress a) (currentHealth g.process a + d) } := by
  rcases findIdx?_enemy hguid hnodup hmem (currentHealth g.process a + d) with
    ⟨k, hfind, hget, hset⟩
  unfold applyEnemyHealth
  rw [hfound, hlist]
  simp only [if_pos haddrs]
  rw [hfind]
  simp only [hget]
  rw [← currentHealth, hset]

/-- An entry adds the change to the health in memory, and records the result. -/
theorem applyEnemyHealth_eq (hE : EnemyList guids es) (hL : EnemyLayout es base g)
    (hmem : (x, a) ∈ es) (d : F) :
    applyEnemyHealth x d g = { g with
      mainPlayer := { g.mainPlayer with enemies := es.map fun e =>
        (e.2, Function.update base x (currentHealth g.process a + d) e.1) }
      process := g.process.writeData (healthAddress a) (currentHealth g.process a + d) } :=
  applyEnemyHealth_of_listed hL.enemies hL.guid hE.nodup hmem (hE.addrs_ne_zero _ hmem)
    (hL.found _ hmem) d

/-- What a client that has applied an entry lists and reads. -/
theorem applyEnemyHealth_layout (hE : EnemyList guids es) (hL : EnemyLayout es base g)
    (hmem : (x, a) ∈ es) (d : F) :
    EnemyLayout es (Function.update base x (health x g + d)) (applyEnemyHealth x d g) ∧
      ∀ y ∈ es.map Prod.fst, health y (applyEnemyHealth x d g) =
        if y = x then health x g + d else health y g := by
  have hx := health_eq hE hL hmem
  have hlayout := (hL.write hmem (health x g + d)).record
    (Function.update base x (health x g + d))
  rw [applyEnemyHealth_eq hE hL hmem, ← hx]
  refine ⟨hlayout, ?_⟩
  intro y hy
  rcases List.mem_map.1 hy with ⟨⟨y', b⟩, hmem', rfl⟩
  rw [health_eq hE hlayout hmem', health_eq hE hL hmem']
  exact currentHealth_write hE hL hmem _ hmem'

/-- An event that finds the healths it names as they were recorded adds its
changes to the healths in memory and to the recorded ones. -/
theorem applyEnemies_synced (hE : EnemyList guids es) {entries : List (UInt64 × F)}
    (hnodup : (entries.map Prod.fst).Nodup)
    (hmem : ∀ entry ∈ entries, entry.1 ∈ es.map Prod.fst) (hL : EnemyLayout es base g)
    (hsync : ∀ entry ∈ entries, base entry.1 = health entry.1 g) :
    ∃ base', EnemyLayout es base' (applyEnemies entries g) ∧ ∀ y ∈ es.map Prod.fst,
      health y (applyEnemies entries g) = health y g + (deltasOf y entries).sum ∧
        base' y = base y + (deltasOf y entries).sum := by
  induction entries generalizing base g with
  | nil =>
      refine ⟨base, hL, ?_⟩
      intro y hy
      exact ⟨(add_zero _).symm, (add_zero _).symm⟩
  | cons entry entries ih =>
      rw [List.map_cons, List.nodup_cons] at hnodup
      rcases List.mem_map.1 (hmem entry List.mem_cons_self) with ⟨⟨x, a⟩, hxa, hx⟩
      dsimp only at hx
      subst hx
      rcases applyEnemyHealth_layout hE hL hxa entry.2 with ⟨hL', hhealth⟩
      have hother : ∀ e ∈ entries, e.1 ≠ entry.1 := by
        intro e he heq
        exact hnodup.1 (List.mem_map.2 ⟨e, he, heq⟩)
      -- the remaining entries name other enemies, which are as they were
      have hsync' : ∀ e ∈ entries, Function.update base entry.1 (health entry.1 g + entry.2) e.1 =
          health e.1 (applyEnemyHealth entry.1 entry.2 g) := by
        intro e he
        have hne := hother e he
        rw [Function.update_of_ne hne, hhealth e.1 (hmem e (List.mem_cons_of_mem _ he)),
          if_neg hne]
        exact hsync e (List.mem_cons_of_mem _ he)
      rcases ih hnodup.2 (fun e he => hmem e (List.mem_cons_of_mem _ he)) hL' hsync' with
        ⟨base', hL'', hrest⟩
      refine ⟨base', hL'', ?_⟩
      intro y hy
      rcases hrest y hy with ⟨hy₁, hy₂⟩
      rw [hhealth y hy] at hy₁
      by_cases hye : y = entry.1
      · subst hye
        have hnone : deltasOf entry.1 entries = [] := deltasOf_eq_nil hnodup.1
        have hone : (deltasOf entry.1 (entry :: entries)).sum = entry.2 := by
          rw [deltasOf_cons_self entry.2, hnone, List.sum_singleton]
        rw [hnone, List.sum_nil, add_zero] at hy₁ hy₂
        rw [if_pos rfl] at hy₁
        rw [Function.update_self] at hy₂
        rw [hone]
        refine ⟨hy₁, ?_⟩
        rw [hy₂, hsync entry List.mem_cons_self]
      · have hskip : deltasOf y (entry :: entries) = deltasOf y entries :=
          deltasOf_cons_of_ne (fun heq => hye heq.symm) entries
        rw [if_neg hye] at hy₁
        rw [Function.update_of_ne hye] at hy₂
        rw [hskip]
        exact ⟨hy₁, hy₂⟩

end layout

/-! ## The clients -/

section clients

variable [FixedWidth B F 4] [AddCommGroup F]

/-- The game changes the health of a listed enemy. -/
def hit (change : UInt64 × F) (g : GameState B F) : Option (GameState B F) :=
  (enemyOf g change.1).map fun e =>
    { g with
      process := g.process.writeData (healthAddress e.1)
        (currentHealth g.process e.1 + change.2) }

variable [DecidableEq F]

/-- `writeEnemiesEvent`; an event with data in it is sent. -/
def sendEnemies (g : GameState B F) : Option (List B) × GameState B F :=
  let r := MainPlayer.writeEnemiesEvent g.process g.mainPlayer
  (sentPayload r.1, { g with mainPlayer := r.2 })

/-- A client, as far as the healths of its enemies go. -/
def enemyPeer (B F : Type) [ByteLike B] [FixedWidth B F 4] [AddCommGroup F] [DecidableEq F] :
    EventRelay.Peer (GameState B F) (List B) (UInt64 × F) where
  change := hit
  write := sendEnemies
  process := processEnemies

/-- The health of one enemy, as a replicated value. -/
def enemyView (B F : Type) [ByteLike B] [FixedWidth B F 4] [AddCommGroup F] (guid : UInt64) :
    EventRelay.View (GameState B F) (List B) (UInt64 × F) F where
  value := health guid
  shared := baseline guid
  amount := fun change => if change.1 = guid then change.2 else 0
  deltas := fun payload => deltasOf guid (eventEntries UInt64 F payload)

/-- The client lists the enemies of `guids`, in a sound layout. -/
def EnemyClient (guids : List UInt64) (g : GameState B F) : Prop :=
  ∃ es base, EnemyList guids es ∧ EnemyLayout es base g

/-- An event that names enemies of `guids`, each once. -/
def EnemyEvent (F : Type) [FixedWidth B F 4] (guids : List UInt64) (payload : List B) : Prop :=
  ∃ (label size : B) (entries : List (UInt64 × F)),
    payload = eventBlock label size entries.length (entries.flatMap entryBytes) ∧
      entries.length < 256 ∧ (entries.map Prod.fst).Nodup ∧ ∀ entry ∈ entries, entry.1 ∈ guids

/-- The number of changed enemies fits into the byte of the count that is set. -/
def EnemiesFit (g : GameState B F) : Prop :=
  (reportedChanges g.process g.mainPlayer.enemies).length < 256

/-- Every enemy the event names has the health that is recorded for it. -/
def NamedSynced (payload : List B) (g : GameState B F) : Prop :=
  ∀ entry ∈ eventEntries UInt64 F payload, baseline entry.1 g = health entry.1 g

instance (g : GameState B F) : Decidable (EnemiesFit g) := inferInstanceAs (Decidable (_ < _))

instance (payload : List B) (g : GameState B F) : Decidable (NamedSynced payload g) :=
  List.decidableBAll _ _

variable {guids : List UInt64} {es : List (UInt64 × UInt32)} {base : UInt64 → F}
  {g : GameState B F} {x : UInt64}

omit [FixedWidth B F 4] [AddCommGroup F] [DecidableEq F] in
/-- An enemy that is found is one of the list. -/
theorem enemyOf_some (hL : EnemyLayout es base g) {e : UInt32 × F} (h : enemyOf g x = some e) :
    (x, e.1) ∈ es := by
  have hmem := List.mem_of_find?_eq_some h
  have hguid : g.process.objGUID e.1 = x := by
    simpa using List.find?_some h
  rw [hL.enemies] at hmem
  rcases List.mem_map.1 hmem with ⟨p, hp, rfl⟩
  have hpx : p.1 = x := (hL.guid p hp).symm.trans hguid
  rw [← hpx]
  exact hp

omit [DecidableEq F] in
/-- A local change of the game. -/
theorem hit_eq (hE : EnemyList guids es) (hL : EnemyLayout es base g) {change : UInt64 × F}
    {g' : GameState B F} (h : hit change g = some g') :
    EnemyLayout es base g' ∧ ∀ y ∈ es.map Prod.fst,
      health y g' = health y g + if change.1 = y then change.2 else 0 := by
  rcases Option.map_eq_some_iff.1 h with ⟨e, he, rfl⟩
  have hmem := enemyOf_some hL he
  have hlayout := hL.write hmem (currentHealth g.process e.1 + change.2)
  refine ⟨hlayout, ?_⟩
  intro y hy
  rcases List.mem_map.1 hy with ⟨⟨y', b⟩, hmem', rfl⟩
  dsimp only
  rw [health_eq hE hlayout hmem', health_eq hE hL hmem']
  dsimp only
  rw [currentHealth_write hE hL hmem _ hmem']
  by_cases hy' : y' = change.1
  · subst hy'
    have hsame : b = e.1 := (hL.found _ hmem').symm.trans (hL.found _ hmem)
    rw [if_pos rfl, if_pos rfl, hsame]
  · rw [if_neg hy', if_neg fun heq => hy' heq.symm, add_zero]

/-- The entries of a client's report. -/
theorem reportedChanges_eq (hE : EnemyList guids es) (hL : EnemyLayout es base g) :
    reportedChanges g.process g.mainPlayer.enemies =
      ((es.map Prod.fst).filter fun y => base y != health y g).map fun y =>
        (y, health y g - base y) := by
  rw [reportedChanges, hL.enemies, List.filter_map, List.map_map, List.filter_map, List.map_map]
  have hfilter : es.filter ((fun e => e.2 != currentHealth g.process e.1) ∘
      fun e => (e.2, base e.1)) = es.filter ((fun y => base y != health y g) ∘ Prod.fst) := by
    apply List.filter_congr
    intro e he
    dsimp only [Function.comp]
    rw [health_eq hE hL (x := e.1) (a := e.2) he]
  rw [hfilter]
  apply List.map_congr_left
  intro e he
  have hmem := List.mem_of_mem_filter he
  dsimp only [Function.comp]
  rw [health_eq hE hL (x := e.1) (a := e.2) hmem, hL.guid e hmem]

/-- A report records all healths as they are and leaves the game alone. -/
theorem sendEnemies_layout (hE : EnemyList guids es) (hL : EnemyLayout es base g)
    (hfit : EnemiesFit g) :
    EnemyLayout es (fun y => health y g) (sendEnemies g).2 ∧
      ∀ y ∈ es.map Prod.fst, health y (sendEnemies g).2 = health y g := by
  have hrecord : g.mainPlayer.enemies.map (fun e => (e.1, currentHealth g.process e.1)) =
      es.map fun e => (e.2, health e.1 g) := by
    rw [hL.enemies, List.map_map]
    apply List.map_congr_left
    intro e he
    rw [health_eq hE hL (x := e.1) (a := e.2) he]
    rfl
  have hplayer := (MainPlayer.writeEnemiesEvent_eq g.process g.mainPlayer hfit).1
  rw [hrecord] at hplayer
  have hafter : (sendEnemies g).2 = { g with mainPlayer :=
      { g.mainPlayer with enemies := es.map fun e => (e.2, health e.1 g) } } := by
    rw [sendEnemies, hplayer]
  rw [hafter]
  have hlayout := hL.record fun y => health y g
  refine ⟨hlayout, ?_⟩
  intro y hy
  rcases List.mem_map.1 hy with ⟨⟨y', b⟩, hmem, rfl⟩
  rw [health_eq hE hlayout hmem, health_eq hE hL hmem]

/-- The event of a report names the changed enemies; there is none if nothing
has changed. -/
theorem sendEnemies_event (hE : EnemyList guids es) (hL : EnemyLayout es base g)
    (hfit : EnemiesFit g) :
    (∀ payload ∈ (sendEnemies g).1, EnemyEvent F guids payload) ∧
      (sendEnemies g).1.toList.flatMap (fun payload => eventEntries UInt64 F payload) =
        reportedChanges g.process g.mainPlayer.enemies := by
  have hmessage := (MainPlayer.writeEnemiesEvent_eq g.process g.mainPlayer hfit).2
  have hlist := reportedChanges_eq hE hL
  have hparse := fun size => eventEntries_eventBlock
    (ByteLike.ofByte DataLabel.enemiesHealth.toByte : B) size (hfit.trans (by norm_num))
  rcases hmessage.sent hparse with ⟨hsent, hentries⟩
  refine ⟨?_, hentries⟩
  intro payload hpayload
  rcases hsent payload hpayload with ⟨size, hblock⟩
  refine ⟨_, size, _, hblock, hfit, ?_, ?_⟩
  · -- the listed enemies have different GUIDs
    rw [hlist, List.map_map]
    have hkeys : (Prod.fst ∘ fun y => (y, health y g - base y)) = id := rfl
    rw [hkeys, List.map_id]
    exact hE.nodup.filter _
  · intro entry hentry
    rw [hlist] at hentry
    rcases List.mem_map.1 hentry with ⟨y, hy, rfl⟩
    exact (hE.mem_iff y).1 (List.mem_of_mem_filter hy)

/-- The operations of a client do to one enemy's health what they should. -/
theorem enemyView_lawful (hx : x ∈ guids) :
    EventRelay.Lawful (enemyPeer B F) (enemyView B F x) (EnemyClient guids)
      (EnemyEvent F guids) EnemiesFit NamedSynced where
  change := by
    rintro l c c' ⟨es, base, hE, hL⟩ h
    rcases hit_eq hE hL h with ⟨hL', hhealth⟩
    have hmem := (hE.mem_iff x).2 hx
    refine ⟨⟨es, base, hE, hL'⟩, hhealth x hmem, ?_⟩
    exact (baseline_eq hE hL' hmem).trans (baseline_eq hE hL hmem).symm
  write := by
    rintro c ⟨es, base, hE, hL⟩ hfit
    rcases sendEnemies_layout hE hL hfit with ⟨hL', hhealth⟩
    have hmem := (hE.mem_iff x).2 hx
    refine ⟨⟨es, _, hE, hL'⟩, hhealth x hmem, ?_⟩
    exact baseline_eq hE hL' hmem
  event := by
    rintro c ⟨es, base, hE, hL⟩ hfit
    rcases sendEnemies_event hE hL hfit with ⟨hevent, hentries⟩
    have hmem := (hE.mem_iff x).2 hx
    have hbase : baseline x c = base x := baseline_eq hE hL hmem
    have hdeltas : (sendEnemies c).1.toList.flatMap (enemyView B F x).deltas =
        if x ∈ es.map Prod.fst ∧ (base x != health x c) = true then [health x c - base x]
        else [] := by
      have hview : (enemyView B F x).deltas =
          fun payload => deltasOf x (eventEntries UInt64 F payload) := rfl
      rw [hview, ← deltasOf_flatMap, hentries, reportedChanges_eq hE hL,
        deltasOf_map_filter hE.nodup (fun y => base y != health y c)
          (fun y => health y c - base y)]
    refine ⟨hevent, ?_⟩
    -- the enemy is in the report, or its health is the recorded one
    by_cases hsame : base x = health x c
    · right
      rw [if_neg fun h => by simp [hsame] at h] at hdeltas
      exact ⟨hdeltas, hsame.symm.trans hbase.symm⟩
    · left
      rw [if_pos ⟨hmem, by simpa using hsame⟩] at hdeltas
      refine hdeltas.trans ?_
      rw [← hbase]
      rfl
  process := by
    rintro payload c ⟨es, base, hE, hL⟩ ⟨label, size, entries, rfl, hlt, hnodup, hguids⟩ hsync
    have hlt' : entries.length < 2 ^ 32 := hlt.trans (by norm_num)
    -- the entries name listed enemies, and none has the GUID 0
    have hlisted : ∀ entry ∈ entries, entry.1 ∈ es.map Prod.fst :=
      fun entry hentry => (hE.mem_iff _).2 (hguids entry hentry)
    have hnonzero : ∀ entry ∈ entries, entry.1 ≠ 0 := by
      intro entry hentry
      rcases List.mem_map.1 (hlisted entry hentry) with ⟨e, he, heq⟩
      rw [← heq]
      exact hE.guid_ne_zero e he
    have hbase : ∀ entry ∈ entries, base entry.1 = health entry.1 c := by
      intro entry hentry
      have hcalm := hsync entry (by rwa [eventEntries_eventBlock _ _ hlt'])
      rw [← hcalm]
      exact (baseline_eq hE hL (hlisted entry hentry)).symm
    have hview : (enemyView B F x).deltas
        (eventBlock label size entries.length (entries.flatMap entryBytes)) =
          deltasOf x entries := by
      have hdeltas : (enemyView B F x).deltas = fun payload =>
          deltasOf x (eventEntries UInt64 F payload) := rfl
      rw [hdeltas]
      dsimp only
      rw [eventEntries_eventBlock _ _ hlt']
    have hprocess : (enemyPeer B F).process
        (eventBlock label size entries.length (entries.flatMap entryBytes)) c =
          applyEnemies entries c :=
      processEnemies_eventBlock label size entries hlt' hnonzero c
    rcases applyEnemies_synced hE hnodup hlisted hL hbase with ⟨base', hL', hafter⟩
    have hmem := (hE.mem_iff x).2 hx
    rcases hafter x hmem with ⟨hhealth, hrecorded⟩
    rw [hprocess, hview]
    refine ⟨⟨es, base', hE, hL'⟩, hhealth, ?_⟩
    have hold : baseline x c = base x := baseline_eq hE hL hmem
    have hnew : baseline x (applyEnemies entries c) = base' x := baseline_eq hE hL' hmem
    exact hnew.trans (hrecorded.trans (congrArg (· + _) hold.symm))

end clients

/-! ## Whole runs -/

section runs

variable [FixedWidth B F 4] [AddCommGroup F] [DecidableEq F] {ι : Type} [DecidableEq ι]

/-- The clients at the start: the same enemies with the same healths, recorded
as they are, and no event on its way. -/
structure EnemiesStart (guids : List UInt64) (start : UInt64 → F)
    (s : EventRelay.State ι (GameState B F) (List B)) : Prop where
  client : ∀ i, EnemyClient guids (s.peer i)
  inbox : ∀ i, s.inbox i = []
  health : ∀ i, ∀ x ∈ guids, health x (s.peer i) = start x
  baseline : ∀ i, ∀ x ∈ guids, baseline x (s.peer i) = start x

/-- The steps of the clients: a hit, a report to all others, an event. -/
def EnemyStep (B F : Type) [ByteLike B] [FixedWidth B F 4] [AddCommGroup F] [DecidableEq F] :
    EventRelay.State ι (GameState B F) (List B) → EventRelay.Action ι (UInt64 × F) →
      EventRelay.State ι (GameState B F) (List B) → Prop :=
  ofFn (EventRelay.step (enemyPeer B F))

/-- If every event finds the healths it names as they were recorded, and no
report names 256 enemies or more: when no event is on its way and everything is
recorded, all clients have the start healths plus all hits. -/
theorem enemies_converge [Fintype ι] {guids : List UInt64} {start : UInt64 → F}
    {s₀ s : EventRelay.State ι (GameState B F) (List B)}
    {as : List (EventRelay.Action ι (UInt64 × F))} (h₀ : EnemiesStart guids start s₀)
    (hrun : Run (Guarded (EnemyStep B F) (EventRelay.Meets EnemiesFit NamedSynced)) s₀ as s)
    (hin : ∀ i, s.inbox i = [])
    (hrest : ∀ i, ∀ x ∈ guids, baseline x (s.peer i) = health x (s.peer i)) :
    ∀ x ∈ guids, ∀ i,
      health x (s.peer i) = start x + EventRelay.changes (enemyView B F x) as := by
  intro x hx i
  exact EventRelay.resting_value (enemyView_lawful hx) h₀.client h₀.inbox
    (fun j => h₀.health j x hx) (fun j => h₀.baseline j x hx) hrun hin
    (fun j => hrest j x hx) i

end runs

/-! ## A hit that is lost -/

/-- A game with one enemy: the object stack has one slot, its object is at
`0x2000` and has the GUID 7 and the health 100. -/
def arena : HobbitProcessAnalyzer (Cell ℤ) where
  isProcessSet := true
  memory := write (write (write (write (write (fun _ => .byte 0) 0x1000 (0x2000 : UInt32))
    0x2008 (7 : UInt64)) 0x2010 (0x04004232 : UInt32)) 0x21A4 (0x0000000200000002 : UInt64))
    0x2290 (100 : ℤ)
  objectStackAddress := 0x1000
  objectStackSize := 1

/-- A client that has just run `readPtrs` on it. -/
def arenaClient : GameState (Cell ℤ) ℤ := GameState.fresh arena

/-- Two such clients. -/
def arenaStart : EventRelay.State (Fin 2) (GameState (Cell ℤ) ℤ) (List (Cell ℤ)) where
  peer := fun _ => arenaClient
  inbox := fun _ => []

/-- The enemy lies apart from the slot and from its own GUID. -/
theorem arena_layout : EnemyLayout [(7, 0x2000)] (fun _ => 100) arenaClient where
  isProcessSet := rfl
  enemies := by decide
  guid := by
    intro e he
    obtain rfl := List.mem_singleton.1 he
    decide
  found := by
    intro e he
    obtain rfl := List.mem_singleton.1 he
    decide
  apart_slot := by
    intro e he slot hslot
    obtain rfl := List.mem_singleton.1 he
    have hslots : arenaClient.process.slots = [0x1000] := by decide
    rw [hslots] at hslot
    obtain rfl := List.mem_singleton.1 hslot
    exact (apart_of_le (by decide) (by decide)).symm
  apart_guid := by
    intro e he slot hslot
    obtain rfl := List.mem_singleton.1 he
    have hslots : arenaClient.process.slots = [0x1000] := by decide
    rw [hslots] at hslot
    obtain rfl := List.mem_singleton.1 hslot
    have hobj : arenaClient.process.objAddrs 0x1000 = 0x2000 := by decide
    rw [hobj]
    exact (apart_of_le (by decide) (by decide)).symm
  apart_own := by
    intro e he e' he'
    obtain rfl := List.mem_singleton.1 he
    obtain rfl := List.mem_singleton.1 he'
    exact (apart_of_le (by decide) (by decide)).symm

theorem arena_start : EnemiesStart [7] (fun _ => 100) arenaStart where
  client := by
    intro i
    refine ⟨[(7, 0x2000)], fun _ => 100, ?_, arena_layout⟩
    constructor
    · intro guid
      rfl
    · decide
    · intro e he
      obtain rfl := List.mem_singleton.1 he
      decide
    · intro e he
      obtain rfl := List.mem_singleton.1 he
      decide
    · intro e he e' he' hne
      rw [List.mem_singleton.1 he, List.mem_singleton.1 he'] at hne
      exact absurd rfl hne
  inbox := by
    intro i
    rfl
  health := by
    intro i x hx
    obtain rfl := List.mem_singleton.1 hx
    revert i
    decide
  baseline := by
    intro i x hx
    obtain rfl := List.mem_singleton.1 hx
    revert i
    decide

/-- The first client's hit is reported before the second one has hit. -/
theorem enemies_converge_one_hit : ∃ s, Run (Guarded (EnemyStep (Cell ℤ) ℤ)
      (EventRelay.Meets EnemiesFit NamedSynced)) arenaStart
      [.change 0 (7, -10), .write 0, .process 1] s ∧
    ∀ i, health 7 (s.peer i) = 90 := by
  have hrun : Run (Guarded (EnemyStep (Cell ℤ) ℤ) (EventRelay.Meets EnemiesFit NamedSynced))
      arenaStart [.change 0 (7, -10), .write 0, .process 1] _ := run_of_isSome (by decide)
  refine ⟨_, hrun, ?_⟩
  refine enemies_converge arena_start hrun (by decide) ?_ 7 List.mem_cons_self
  intro i x hx
  obtain rfl := List.mem_singleton.1 hx
  revert i
  decide

/-- Both clients hit, and the second one's report comes before the first one
has reported: the first one's hit stays unknown to the second. -/
def lostHit : List (EventRelay.Action (Fin 2) (UInt64 × ℤ)) :=
  [.change 0 (7, -10), .change 1 (7, -5), .write 1, .process 0, .write 0]

theorem pending_hit_lost : ∃ s, Run (EnemyStep (Cell ℤ) ℤ) arenaStart lostHit s ∧
    EnemiesStart [7] (fun _ => 100) arenaStart ∧ (∀ i, s.inbox i = []) ∧
    (∀ i, baseline 7 (s.peer i) = health 7 (s.peer i)) ∧
    100 + EventRelay.changes (enemyView (Cell ℤ) ℤ 7) lostHit = 85 ∧
    health 7 (s.peer 0) = 85 ∧ health 7 (s.peer 1) = 95 := by
  refine ⟨(exec (EventRelay.step (enemyPeer (Cell ℤ) ℤ)) arenaStart lostHit).get (by decide),
    run_of_exec (Option.some_get _).symm, arena_start, ?_⟩
  decide

end HobbitSynchrony
