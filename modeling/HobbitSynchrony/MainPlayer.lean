import HobbitSynchrony.HobbitProcessAnalyzer
import HobbitSynchrony.Message
import HobbitSynchrony.Utility

/-! # The main player

`Hobbit Multiplayer/MainPlayer.h`: the baselines of the enemies' healths and
of the inventory, the two writers that report what the game changed since the
last report, and the pieces of the readers that apply what the others
reported.

Numbers the program keeps as `float` are values of a type `F`; only the
operations the code uses are asked of it, so that `F` can be the float type
as well as an exact one.
-/

namespace HobbitSynchrony

open AddressSpace

/-- `MainPlayer`: the recorded healths (object address and health) and item
counts (item and count), and the level. -/
structure MainPlayer (F : Type) where
  level : UInt32
  enemies : List (UInt32 × F)
  inventory : List (UInt8 × F)

/-- `ptrInventory`. -/
def ptrInventory : UInt32 := 0x0075BDB0

/-- `ptrInventory + 0x4 * item`. -/
def itemAddress (item : UInt8) : UInt32 := ptrInventory + 0x4 * item.toUInt32

/-- `e.first + 0x290`. -/
def healthAddress (addrs : UInt32) : UInt32 := addrs + 0x290

namespace MainPlayer

variable {B F : Type} [ByteLike B] [FixedWidth B F 4] [Zero F]

/-! ## `readPtrs` -/

/-- The test of `readPtrs` on the objects its template search returns. (The
comparison with Bilbo's GUID only logs.) -/
def isEnemy (process : HobbitProcessAnalyzer B) (e : UInt32) : Bool :=
  0x04004232 == process.readData UInt32 (e + 0x10)

/-- `readPtrs`: the enemies are rebuilt, the items are appended to the
inventory. -/
def readPtrs (process : HobbitProcessAnalyzer B) (player : MainPlayer F) : MainPlayer F :=
  { player with
    enemies :=
      ((process.findAllGameObjByPattern (0x0000000200000002 : UInt64) (0x184 + 0x8 * 0x4)).filter
        (isEnemy process)).map fun e => (e, process.readData F (healthAddress e))
    inventory :=
      player.inventory ++ (List.range 56).map fun item =>
        (UInt8.ofNat item, process.readData F (itemAddress (UInt8.ofNat item))) }

/-! ## `writeEnemiesEvent` -/

/-- `dataVec[1] += size`. -/
def addSize (size : UInt8) (dataVec : List B) : List B :=
  dataVec.modify 1 fun b => ByteLike.ofByte (ByteLike.toByte b + size)

/-- The head of a block: the label, the size byte, and a 32-bit count. -/
def blockHead (label : DataLabel) : List B :=
  addSize 4 (pushTypeToVector (0 : UInt32) [ByteLike.ofByte label.toByte, ByteLike.ofByte 0])

/-- `dataVec[2] = count`: one byte of the 32-bit count. -/
def setCount (count : UInt32) (dataVec : List B) : List B :=
  dataVec.set 2 (ByteLike.ofByte count.toUInt8)

variable [BEq F] [Sub F]

/-- The loop of `writeEnemiesEvent` over the enemies: the data vector, the
number sent, and the enemies with their new baselines. -/
def writeEnemies (process : HobbitProcessAnalyzer B) :
    List (UInt32 × F) → List B → UInt32 → List B × UInt32 × List (UInt32 × F)
  | [], dataVec, enemisSend => (dataVec, enemisSend, [])
  | e :: rest, dataVec, enemisSend =>
    let currentHealth := process.readData F (healthAddress e.1)
    -- the GUID and the change are pushed, the health in memory is recorded
    if e.2 != currentHealth then
      let dataVec := addSize 8 (pushTypeToVector (process.objGUID e.1) dataVec)
      let dataVec := addSize 4 (pushTypeToVector (currentHealth - e.2) dataVec)
      let (dataVec, enemisSend, rest) := writeEnemies process rest dataVec (enemisSend + 1)
      (dataVec, enemisSend, (e.1, currentHealth) :: rest)
    else
      let (dataVec, enemisSend, rest) := writeEnemies process rest dataVec enemisSend
      (dataVec, enemisSend, e :: rest)

/-- `writeEnemiesEvent`. -/
def writeEnemiesEvent (process : HobbitProcessAnalyzer B) (player : MainPlayer F) :
    BaseMessage B × MainPlayer F :=
  let (dataVec, enemisSend, enemies) :=
    writeEnemies process player.enemies (blockHead .enemiesHealth) 0
  let player := { player with enemies := enemies }
  if 0 < enemisSend then
    ({ messageType := eventMessage, senderID := 0, message := setCount enemisSend dataVec }, player)
  else (BaseMessage.empty B, player)

/-! ## `writeInventoryEvent` -/

/-- The jumps at the head of the loop of `writeInventoryEvent`. -/
def skipGap (i : UInt8) : UInt8 :=
  if 1 < i ∧ i < 6 then 6
  else if 7 < i ∧ i < 20 then 20
  else if 22 < i ∧ i < 25 then 25
  else if 25 < i ∧ i < 28 then 28
  else if i = 46 then i + 1
  else if i = 50 then 52
  else i

/-- What the loop of `writeInventoryEvent` carries. -/
structure InventoryLoop (B F : Type) where
  dataVec : List B
  inventorySend : UInt32
  inventory : List (UInt8 × F)

variable [LT F] [DecidableLT F]

/-- `inventory[i].second`. -/
def countAt (inventory : List (UInt8 × F)) (i : UInt8) : F :=
  match inventory[i.toNat]? with
  | some entry => entry.2
  | none => 0

/-- `inventory[i].second = count`. -/
def setCountAt (inventory : List (UInt8 × F)) (i : UInt8) (count : F) : List (UInt8 × F) :=
  inventory.modify i.toNat fun entry => (entry.1, count)

/-- Whether the loop reports item `i`: it differs (below 53) or has dropped
(from 53 on), and is not held back by one of the rules for items 6 and 7. -/
def reports (process : HobbitProcessAnalyzer B) (inventory : List (UInt8 × F)) (i : UInt8) : Bool :=
  let now (item : UInt8) : F := process.readData F (itemAddress item)
  if (countAt inventory i != now i && i < 53) ||
      (53 ≤ i && decide (now i < countAt inventory i)) then
    -- the `continue`s: 6 and 7 are not reported when they, or 25 for 7, have dropped
    if i = 6 ∧ now 6 < countAt inventory 6 then false
    else if i = 7 ∧ now 25 < countAt inventory 25 then false
    else if i = 7 ∧ now 7 < countAt inventory 7 then false
    else true
  else false

/-- The body of the loop for item `i`, after the jumps. -/
def writeItem (process : HobbitProcessAnalyzer B) (st : InventoryLoop B F) (i : UInt8) :
    InventoryLoop B F :=
  if reports process st.inventory i then
    let now : F := process.readData F (itemAddress i)
    let dataVec := addSize 1 (pushTypeToVector i st.dataVec)
    let dataVec := addSize 4 (pushTypeToVector (now - countAt st.inventory i) dataVec)
    { dataVec := dataVec
      inventorySend := st.inventorySend + 1
      inventory := setCountAt st.inventory i now }
  else st

/-- The loop `for (i = 0; i < 56; i++)`; `fuel` bounds the number of turns. -/
def writeItems (process : HobbitProcessAnalyzer B) :
    ℕ → UInt8 → InventoryLoop B F → InventoryLoop B F
  | 0, _, st => st
  | fuel + 1, i, st =>
    -- the jump is made on `i` itself, so `i++` goes on from where it led
    if i < 56 then writeItems process fuel (skipGap i + 1) (writeItem process st (skipGap i))
    else st

/-- `writeInventoryEvent`. -/
def writeInventoryEvent (process : HobbitProcessAnalyzer B) (player : MainPlayer F) :
    BaseMessage B × MainPlayer F :=
  let st := writeItems process 56 0
    { dataVec := blockHead .inventory, inventorySend := 0, inventory := player.inventory }
  let player := { player with inventory := st.inventory }
  -- without entries nothing is sent, and nothing has been recorded
  if 0 < st.inventorySend then
    ({ messageType := eventMessage, senderID := 0,
       message := setCount st.inventorySend st.dataVec }, player)
  else (BaseMessage.empty B, player)

end MainPlayer

end HobbitSynchrony
