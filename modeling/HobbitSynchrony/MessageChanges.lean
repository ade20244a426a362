import HobbitSynchrony.FailedBlocks

/-! # What handling a message changes

The handlers change the game state by a few single changes: a field of a slot,
the level, the health of a listed enemy, the count of an item. A relation that
holds of every such change holds of a game before and after a message, whether
it is read to its end or throws.

* `HandlerRelation`, `ChangeRelation`: the relations in question;
* `Within`: a handler whose changes are all in the relation;
* `Within.bind`: the rule for two handlers, one after the other;
* `readGameMessage_within`: a whole message.
-/

namespace HobbitSynchrony

open AddressSpace

variable {B F : Type}

/-- A relation between a game and what handlers make of it, one after the other. -/
structure HandlerRelation (R : GameState B F → GameState B F → Prop) : Prop where
  refl : ∀ g, R g g
  trans : ∀ {g g' g''}, R g g' → R g' g'' → R g g''

/-- The relation has the changes of fields of a slot. -/
def HasSlots (R : GameState B F → GameState B F → Prop) : Prop :=
  ∀ (g : GameState B F) (slot : Fin 7) (set : ConnectedPlayer F → ConnectedPlayer F),
    (∀ p, (set p).id = p.id) →
      R g { g with connectedPlayers := fun i =>
        if i = slot then set (g.connectedPlayers i) else g.connectedPlayers i }

/-- It has the changes of the level. -/
def HasLevel (R : GameState B F → GameState B F → Prop) : Prop :=
  ∀ (g : GameState B F) (newLevel : UInt32),
    R g { g with mainPlayer := { g.mainPlayer with level := newLevel } }

/-- It has the changes of the health of a listed enemy. -/
def HasEnemies [FixedWidth B F 4] (R : GameState B F → GameState B F → Prop) : Prop :=
  ∀ (g : GameState B F) (k : ℕ) (e : UInt32 × F) (health : F),
    g.mainPlayer.enemies[k]? = some e →
      R g { g with
        mainPlayer := { g.mainPlayer with enemies := g.mainPlayer.enemies.set k (e.1, health) }
        process := g.process.writeData (healthAddress e.1) health }

/-- It has the changes of the count of an item. -/
def HasItems [FixedWidth B F 4] (R : GameState B F → GameState B F → Prop) : Prop :=
  ∀ (g : GameState B F) (item : UInt8) (entry : UInt8 × F) (count : F),
    g.mainPlayer.inventory[item.toNat]? = some entry →
      R g { g with
        mainPlayer := { g.mainPlayer with
          inventory := g.mainPlayer.inventory.set item.toNat (entry.1, count) }
        process := g.process.writeData (itemAddress item) count }

/-- A relation that has every single change that a handler makes. -/
structure ChangeRelation [FixedWidth B F 4] (R : GameState B F → GameState B F → Prop) : Prop
    extends HandlerRelation R where
  slot : HasSlots R
  level : HasLevel R
  enemy : HasEnemies R
  item : HasItems R

/-- Whatever its outcome, the handler leaves a related game. -/
def Within {α : Type} (R : GameState B F → GameState B F → Prop) (x : Handler B F α) : Prop :=
  ∀ s, R s.game (gameAfter (x s))

section rules

variable {R : GameState B F → GameState B F → Prop}

/-! ## Rules -/

theorem within_pure {α : Type} (hR : HandlerRelation R) (a : α) :
    Within R (pure a : Handler B F α) := fun s => hR.refl s.game

theorem within_onQueue {α : Type} (hR : HandlerRelation R) (x : EStateM GameError (List B) α) :
    Within R (onQueue x : Handler B F α) := by
  intro s
  unfold onQueue
  split
  · exact hR.refl s.game
  · exact hR.refl s.game

theorem within_onGame {f : GameState B F → GameState B F} (h : ∀ g, R g (f g)) :
    Within R (onGame f) := fun s => h s.game

theorem Within.bind {α β : Type} (hR : HandlerRelation R) {x : Handler B F α}
    {f : α → Handler B F β} (hx : Within R x) (hf : ∀ a, Within R (f a)) :
    Within R (x >>= f) := by
  intro s
  have hfirst := hx s
  cases hrun : x s with
  | ok a t =>
      rw [hrun] at hfirst
      rw [bind_ok hrun]
      exact hR.trans hfirst (hf a t)
  | error e t =>
      rw [hrun] at hfirst
      rw [bind_error hrun]
      exact hfirst

/-! ## The handlers -/

theorem within_readField (hR : HandlerRelation R) (hslot : HasSlots R) (slot : Fin 7)
    (T : Type) {n : ℕ} [FixedWidth B T n] (set : ConnectedPlayer F → T → ConnectedPlayer F)
    (hid : ∀ p v, (set p v).id = p.id) : Within R (readField slot T set : Handler B F Unit) := by
  refine Within.bind hR (within_onQueue hR _) fun value => within_onGame fun g => ?_
  exact hslot g slot (fun p => set p value) fun p => hid p value

variable [ByteLike B] [FixedWidth B F 4]

theorem within_readConectedPlayerSnap (hR : HandlerRelation R) (hslot : HasSlots R)
    (slot : Fin 7) :
    Within R (readConectedPlayerSnap slot : Handler B F Unit) := by
  unfold readConectedPlayerSnap
  refine Within.bind hR (within_readField hR hslot slot UInt8 _ fun _ _ => rfl) fun _ => ?_
  refine Within.bind hR (within_readField hR hslot slot UInt32 _ fun _ _ => rfl) fun _ => ?_
  refine Within.bind hR (within_readField hR hslot slot F _ fun _ _ => rfl) fun _ => ?_
  refine Within.bind hR (within_readField hR hslot slot F _ fun _ _ => rfl) fun _ => ?_
  refine Within.bind hR (within_readField hR hslot slot F _ fun _ _ => rfl) fun _ => ?_
  refine Within.bind hR (within_readField hR hslot slot F _ fun _ _ => rfl) fun _ => ?_
  refine Within.bind hR (within_readField hR hslot slot F _ fun _ _ => rfl) fun _ => ?_
  refine Within.bind hR (within_readField hR hslot slot F _ fun _ _ => rfl) fun _ => ?_
  exact within_readField hR hslot slot Int8 _ fun _ _ => rfl

omit [FixedWidth B F 4] in
theorem within_readConectedPlayerLevel (hR : HandlerRelation R) (hlevel : HasLevel R) :
    Within R (readConectedPlayerLevel : Handler B F Unit) := by
  refine Within.bind hR (within_onQueue hR _) fun newLevel => ?_
  refine Within.bind hR (within_onGame fun g => ?_) fun _ => within_onQueue hR _
  split
  · exact hlevel g newLevel
  · exact hR.refl g

variable [Zero F] [Add F]

theorem applyEnemyHealth_related (hR : HandlerRelation R) (henemy : HasEnemies R) (guid : UInt64)
    (healthChange : F) (g : GameState B F) : R g (applyEnemyHealth guid healthChange g) := by
  unfold applyEnemyHealth
  dsimp only
  split
  · split
    · exact hR.refl g
    · split
      · exact hR.refl g
      next e hget => exact henemy g _ e _ hget
  · exact hR.refl g

theorem within_readEnemies (hR : HandlerRelation R) (henemy : HasEnemies R) (n : ℕ) :
    Within R (readEnemies n : Handler B F Unit) := by
  induction n with
  | zero => exact within_pure hR ()
  | succ n ih =>
      refine Within.bind hR (within_onQueue hR _) fun guid => ?_
      refine Within.bind hR (within_onQueue hR _) fun healthChange => ?_
      split
      · exact ih
      · exact Within.bind hR (within_onGame (applyEnemyHealth_related hR henemy guid healthChange))
          fun _ => ih

theorem within_readProcessEnemiesHealth (hR : HandlerRelation R) (henemy : HasEnemies R) :
    Within R (readProcessEnemiesHealth : Handler B F Unit) :=
  Within.bind hR (within_onQueue hR _) fun _ => within_readEnemies hR henemy _

omit [Zero F] [Add F] in
theorem within_readEntries (hR : HandlerRelation R) (n : ℕ) :
    Within R (readEntries UInt8 n : Handler B F (List (UInt8 × F))) := by
  induction n with
  | zero => exact within_pure hR []
  | succ n ih =>
      refine Within.bind hR (within_onQueue hR _) fun item => ?_
      refine Within.bind hR (within_onQueue hR _) fun value => ?_
      exact Within.bind hR ih fun rest => within_pure hR _

variable [LT F] [DecidableLT F]

omit [ByteLike B] in
theorem within_applyInventories (hR : HandlerRelation R) (hitem : HasItems R)
    (entries : List (UInt8 × F)) : Within R (applyInventories entries : Handler B F Unit) := by
  induction entries with
  | nil => exact within_pure hR ()
  | cons entry entries ih =>
      refine Within.bind hR ?_ fun _ => ih
      intro s
      unfold applyInventory
      split
      · exact hR.refl s.game
      next found hget => exact hitem s.game entry.1 found _ hget

theorem within_readProcessInventory (hR : HandlerRelation R) (hitem : HasItems R) :
    Within R (readProcessInventory : Handler B F Unit) :=
  Within.bind hR (within_onQueue hR _) fun _ =>
    Within.bind hR (within_readEntries hR _) fun entries =>
      within_applyInventories hR hitem entries

theorem within_handleLabel (hR : ChangeRelation R) (senderID : UInt8) (label : DataLabel) :
    Within R (handleLabel senderID label : Handler B F Unit) := by
  cases label with
  | connectedPlayerSnap =>
      intro s
      exact within_readConectedPlayerSnap hR.toHandlerRelation hR.slot (slotOf s.game senderID) s
  | enemiesHealth => exact within_readProcessEnemiesHealth hR.toHandlerRelation hR.enemy
  | connectedPlayerLevel => exact within_readConectedPlayerLevel hR.toHandlerRelation hR.level
  | inventory => exact within_readProcessInventory hR.toHandlerRelation hR.item
  | server => exact within_pure hR.toHandlerRelation ()
  | other value => exact within_pure hR.toHandlerRelation ()

/-! ## A message -/

theorem within_readBlocks (hR : ChangeRelation R) (states : LabelStates) (senderID : UInt8)
    (fuel : ℕ) : Within R (readBlocks states senderID fuel : Handler B F Unit) := by
  induction fuel with
  | zero => exact within_pure hR.toHandlerRelation ()
  | succ fuel ih =>
      intro s
      unfold readBlocks
      split
      · exact hR.refl s.game
      · exact hR.refl s.game
      next label size rest _ =>
        dsimp only
        split
        · exact Within.bind hR.toHandlerRelation (within_handleLabel hR senderID _) (fun _ => ih)
            ⟨rest, s.game⟩
        · exact ih ⟨rest.drop (ByteLike.toByte size).toNat, s.game⟩

/-- The game after a message is related to the one before, also if the message
throws. -/
theorem readGameMessage_within (hR : ChangeRelation R) (states : LabelStates) (senderID : UInt8)
    (q : List B) (g : GameState B F) :
    R g (gameAfter (readGameMessage states senderID ⟨q, g⟩)) :=
  within_readBlocks hR states senderID q.length ⟨q, g⟩

end rules

end HobbitSynchrony
