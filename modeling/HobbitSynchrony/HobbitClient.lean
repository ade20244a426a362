import HobbitSynchrony.MainPlayer

/-! # Handling a received game message

`HobbitClient::readGameMessage` and the handlers it calls
(`ConnectedPlayer::readConectedPlayerSnap` and the `read...` members of
`MainPlayer`). A handler works on the queue of the message and on the game
state; both are kept when it throws.

* `GameState`: what a handler can change;
* the four handlers, statement by statement;
* `readGameMessage`: the loop over the blocks of a message.
-/

namespace HobbitSynchrony

open AddressSpace

/-- `ConnectedPlayer`: its id and the snapshot it holds. -/
structure ConnectedPlayer (F : Type) where
  id : Int
  hostLevel : UInt8
  animation : UInt32
  animFrame : F
  lastAnimFrame : F
  position : Vector3 F
  rotationY : F
  weapon : Int8

/-- What the handlers of a message can change: the game process, the main
player and the `MAX_PLAYERS` slots. -/
structure GameState (B F : Type) where
  process : HobbitProcessAnalyzer B
  mainPlayer : MainPlayer F
  connectedPlayers : Fin 7 → ConnectedPlayer F

/-- A message being handled: the rest of its queue, and the game state. -/
structure Handling (B F : Type) where
  gameData : List B
  game : GameState B F

/-- A handler: it returns or throws, and leaves a queue and a game state. -/
abbrev Handler (B F : Type) := EStateM GameError (Handling B F)

section handlers

variable {B F : Type}

/-- An operation on the queue. -/
def onQueue {α : Type} (x : EStateM GameError (List B) α) : Handler B F α := fun s =>
  match x s.gameData with
  | .ok a q => .ok a { s with gameData := q }
  | .error e q => .error e { s with gameData := q }

/-- A change of the game state. -/
def onGame (f : GameState B F → GameState B F) : Handler B F Unit := fun s =>
  .ok () { s with game := f s.game }

/-- `convertQueueToType<T>(gameData)`. -/
def convert (T : Type) {n : ℕ} [FixedWidth B T n] : Handler B F T :=
  onQueue (convertQueueToType T)

variable [ByteLike B] [FixedWidth B F 4]

/-! ## Snapshots -/

/-- Read a value and put it into a field of the player in slot `slot`. -/
def readField (slot : Fin 7) (T : Type) {n : ℕ} [FixedWidth B T n]
    (set : ConnectedPlayer F → T → ConnectedPlayer F) : Handler B F Unit := do
  let value ← convert T
  onGame fun g =>
    { g with connectedPlayers := fun i =>
        if i = slot then set (g.connectedPlayers i) value else g.connectedPlayers i }

/-- `readConectedPlayerSnap` on slot `slot`: one field after the other. -/
def readConectedPlayerSnap (slot : Fin 7) : Handler B F Unit := do
  readField slot UInt8 fun p v => { p with hostLevel := v }
  readField slot UInt32 fun p v => { p with animation := v }
  readField slot F fun p v => { p with animFrame := v }
  readField slot F fun p v => { p with lastAnimFrame := v }
  readField slot F fun p v => { p with position := { p.position with x := v } }
  readField slot F fun p v => { p with position := { p.position with y := v } }
  readField slot F fun p v => { p with position := { p.position with z := v } }
  readField slot F fun p v => { p with rotationY := v }
  readField slot Int8 fun p v => { p with weapon := v }

/-! ## Level changes -/

/-- `readConectedPlayerLevel`. -/
def readConectedPlayerLevel : Handler B F Unit := do
  let newLevel ← convert UInt32
  onGame fun g =>
    if g.mainPlayer.level ≠ newLevel then
      { g with mainPlayer := { g.mainPlayer with level := newLevel } }
    else g
  onQueue popQueue

/-! ## Enemies -/

variable [Zero F] [Add F]

/-- A client that has just found the game and run `readPtrs` on it; nobody is
in its slots. -/
def GameState.fresh (process : HobbitProcessAnalyzer B) : GameState B F where
  process := process
  mainPlayer := MainPlayer.readPtrs process { level := 0, enemies := [], inventory := [] }
  connectedPlayers := fun _ =>
    { id := -1, hostLevel := 0, animation := 0, animFrame := 0, lastAnimFrame := 0,
      position := { x := 0, y := 0, z := 0 }, rotationY := 0, weapon := 0 }

/-- What one entry of an enemies message does: the object is searched by its
GUID, then the first listed enemy with that GUID gets the object's current
health plus the change, in the list and in memory. -/
def applyEnemyHealth (guid : UInt64) (healthChange : F) (g : GameState B F) : GameState B F :=
  let objAddrs := g.process.findGameObjByGUID guid
  if objAddrs ≠ 0 then
    let health : F := g.process.readData F (healthAddress objAddrs)
    -- only the first listed enemy with the GUID: the loop breaks
    match g.mainPlayer.enemies.findIdx? fun e => g.process.objGUID e.1 == guid with
    | none => g
    | some k =>
      match g.mainPlayer.enemies[k]? with
      | none => g
      | some e =>
        { g with
          mainPlayer := { g.mainPlayer with
            enemies := g.mainPlayer.enemies.set k (e.1, health + healthChange) }
          process := g.process.writeData (healthAddress e.1) (health + healthChange) }
  else g

/-- The loop of `readProcessEnemiesHealth`: entries are applied as they are
read. -/
def readEnemies : ℕ → Handler B F Unit
  | 0 => pure ()
  | n + 1 => do
    let guid ← convert UInt64
    let healthChange ← convert F
    -- an entry without GUID is skipped, its bytes are gone
    if guid = 0 then readEnemies n
    else do
      onGame (applyEnemyHealth guid healthChange)
      readEnemies n

/-- `readProcessEnemiesHealth`. -/
def readProcessEnemiesHealth : Handler B F Unit := do
  let numberHurtEnemies ← convert UInt32
  readEnemies numberHurtEnemies.toNat

/-! ## Inventory -/

/-- A loop that reads `n` pairs of a key and a value before anything is done with
them. It is the first loop of `readProcessInventory`, where the keys are items. -/
def readEntries (K : Type) {k : ℕ} [FixedWidth B K k] : ℕ → Handler B F (List (K × F))
  | 0 => pure []
  | n + 1 => do
    let key ← convert K
    let value ← convert F
    let rest ← readEntries K n
    pure ((key, value) :: rest)

variable [LT F] [DecidableLT F]

/-- The new count of an item: the recorded one plus the change, at least 0. -/
def changedCount (count change : F) : F := if count + change < 0 then 0 else count + change

/-- One turn of the second loop of `readProcessInventory`. -/
def applyInventory (item : UInt8) (change : F) : Handler B F Unit := fun s =>
  match s.game.mainPlayer.inventory[item.toNat]? with
  | none => .error .outOfRange s
  | some entry =>
    -- the count in memory is read as well, and not used
    let count := changedCount entry.2 change
    .ok () { s with game := { s.game with
      mainPlayer := { s.game.mainPlayer with
        inventory := s.game.mainPlayer.inventory.set item.toNat (entry.1, count) }
      process := s.game.process.writeData (itemAddress item) count } }

/-- The second loop of `readProcessInventory`. -/
def applyInventories : List (UInt8 × F) → Handler B F Unit
  | [] => pure ()
  | (item, change) :: rest => do
    applyInventory item change
    applyInventories rest

/-- `readProcessInventory`. -/
def readProcessInventory : Handler B F Unit := do
  let numberChangeInventory ← convert UInt32
  let readInventory ← readEntries UInt8 numberChangeInventory.toNat
  applyInventories readInventory

/-! ## The message loop -/

/-- The slot of a sender: the first with its id, slot 0 if there is none. -/
def slotOf (g : GameState B F) (senderID : UInt8) : Fin 7 :=
  ((List.finRange 7).find? fun i => (g.connectedPlayers i).id == senderID.toNat).getD 0

/-- The handler of an enabled label; unknown labels are only logged. -/
def handleLabel (senderID : UInt8) (label : DataLabel) : Handler B F Unit :=
  match label with
  | .connectedPlayerSnap => fun s => readConectedPlayerSnap (slotOf s.game senderID) s
  | .enemiesHealth => readProcessEnemiesHealth
  | .connectedPlayerLevel => readConectedPlayerLevel
  | .inventory => readProcessInventory
  | .server => pure ()
  | .other _ => pure ()

/-- `messageLabelStates`; labels that are not in the map are processed. -/
abbrev LabelStates := DataLabel → Option Bool

/-- `processLabel`. -/
def LabelStates.processLabel (states : LabelStates) (label : DataLabel) : Bool :=
  (states label).getD true

/-- The loop of `readGameMessage`. Every turn takes at least one byte off the
queue, so its length is enough fuel (`readBlocks_fuel`). -/
def readBlocks (states : LabelStates) (senderID : UInt8) : ℕ → Handler B F Unit
  | 0 => pure ()
  | fuel + 1 => fun s =>
    match s.gameData with
    | [] => .ok () s
    | [_] => .ok () { s with gameData := [] }
    | label :: size :: rest =>
      let label := DataLabel.ofByte (ByteLike.toByte label)
      let s := { s with gameData := rest }
      if states.processLabel label then
        (do handleLabel senderID label; readBlocks states senderID fuel) s
      -- a disabled label: as many bytes are popped as the size says, if there are any
      else
        readBlocks states senderID fuel
          { s with gameData := rest.drop (ByteLike.toByte size).toNat }

/-- `readGameMessage`. -/
def readGameMessage (states : LabelStates) (senderID : UInt8) : Handler B F Unit := fun s =>
  readBlocks states senderID s.gameData.length s

end handlers

end HobbitSynchrony
