import HobbitSynchrony.Lib.Run
import HobbitSynchrony.ConnectionLoss
import HobbitSynchrony.NPC
import HobbitSynchrony.Snapshot

/-! # Showing the other players

The seven slots of `HobbitClient`: `onClientListUpdate` gives them the IDs of a
roster, `readGameMessage` puts a snapshot into the slot of its sender, and
`ConnectedPlayer::processPlayer` writes what a slot holds into the game.

* `processPlayer`, `onClientListUpdate`;
* `ShownPlayers`, `step`: rosters, snapshots, ticks and changes of the game in
  any order;
* `snapshots_attributed`: a slot shows the player whose ID it has, if that player
  has sent the last snapshot put into it since it got the ID;
* `inherited_slot`: a player who is shown with the snapshot of another one.
-/

namespace HobbitSynchrony

open Transition

variable {B F : Type} [ByteLike B] [FixedWidth B F 4]

/-! ## `processPlayer` -/

/-- The GUID of the object whose weapon is shown. -/
def guidOfWeapon (weapon : Int8) : UInt64 :=
  if weapon = 2 then 0x0D8AD910E885100D
  else if weapon = 0 then 0x0D8AD910E885100B
  else if weapon = 1 then 0x0D8AD910E885100A
  else if weapon = 3 then 0x0D8AD910E885100C
  else 0

/-- The part of `processPlayer` behind its returns: a snapshot is written into
the game. -/
def showSnapshot (npc : NPC) (snap : Snapshot F) (w : GameWrites B) : GameWrites B :=
  let w := npc.setPositionX snap.position.x w
  let w := npc.setPositionY snap.position.y w
  let w := npc.setPositionZ snap.position.z w
  let w := npc.setRotationY snap.rotationY w
  let w :=
    if snap.animation ≠ npc.getAnimation w.process then
      npc.setAnimFrames snap.animFrame snap.lastAnimFrame (npc.setAnimation snap.animation w)
    else w
  if snap.weapon ≠ -1 then
    let addrsGuidNone := w.process.findGameObjByGUID (guidOfWeapon snap.weapon)
    if addrsGuidNone ≠ 0 then npc.setWeapon (w.process.readData UInt32 (addrsGuidNone + 0x260)) w
    else w
  else w

/-- The slot has the ID of another player. -/
def ConnectedPlayer.IsOther (myId : UInt8) (p : ConnectedPlayer F) : Prop :=
  p.id ≠ -1 ∧ p.id ≠ myId.toNat

instance (myId : UInt8) (p : ConnectedPlayer F) : Decidable (p.IsOther myId) :=
  inferInstanceAs (Decidable (_ ∧ _))

/-- The player is shown: it is another one, on the level of this game. -/
def ConnectedPlayer.IsShown (myId : UInt8) (p : ConnectedPlayer F) (w : GameWrites B) : Prop :=
  p.IsOther myId ∧ p.hostLevel = w.process.readData UInt8 0x00762B5C

instance (myId : UInt8) (p : ConnectedPlayer F) (w : GameWrites B) :
    Decidable (p.IsShown myId w) :=
  inferInstanceAs (Decidable (_ ∧ _))

/-- `processPlayer`. -/
def processPlayer (myId : UInt8) (npc : NPC) (p : ConnectedPlayer F) (w : GameWrites B) :
    GameWrites B :=
  if p.id = -1 ∨ p.id = myId.toNat then w
  else if p.hostLevel ≠ w.process.readData UInt8 0x00762B5C then w
  else showSnapshot npc p.snapshot w

theorem processPlayer_eq (myId : UInt8) (npc : NPC) (p : ConnectedPlayer F) (w : GameWrites B) :
    processPlayer myId npc p w = if p.IsShown myId w then showSnapshot npc p.snapshot w else w := by
  unfold processPlayer
  by_cases hid : p.id = -1 ∨ p.id = myId.toNat
  · have hnot : ¬ p.IsShown myId w := by
      rintro ⟨⟨hnone, hme⟩, -⟩
      exact hid.elim hnone hme
    rw [if_pos hid, if_neg hnot]
  · rw [if_neg hid]
    by_cases hlevel : p.hostLevel = w.process.readData UInt8 0x00762B5C
    · have hshown : p.IsShown myId w := ⟨not_or.1 hid, hlevel⟩
      rw [if_neg (not_not.2 hlevel), if_pos hshown]
    · have hnot : ¬ p.IsShown myId w := fun hshown => hlevel hshown.2
      rw [if_pos hlevel, if_neg hnot]

/-! ## The slots -/

/-- The ID of slot `i` for these IDs, `-1` if there are not so many. -/
def slotID (clientIDs : List UInt8) (i : Fin 7) : Int :=
  match clientIDs[i.val]? with
  | some clientID => clientID.toNat
  | none => -1

/-- What `onClientListUpdate` does to the slots. -/
def onClientListUpdate (clientIDs : List UInt8) (g : GameState B F) : GameState B F :=
  { g with
    connectedPlayers := fun i => { g.connectedPlayers i with id := slotID clientIDs i } }

/-- The slots get different IDs from a list without repetitions. -/
theorem eq_of_slotID_eq {clientIDs : List UInt8} (hnodup : clientIDs.Nodup) {i j : Fin 7}
    (hid : slotID clientIDs i ≠ -1) (heq : slotID clientIDs i = slotID clientIDs j) : i = j := by
  unfold slotID at hid heq
  apply Fin.ext
  cases hi : clientIDs[i.val]? with
  | none =>
      rw [hi] at hid
      exact absurd rfl hid
  | some p =>
      have hlt := (List.getElem?_eq_some_iff.1 hi).1
      apply (List.getElem?_inj hlt hnodup).1
      cases hj : clientIDs[j.val]? with
      | none =>
          rw [hi, hj] at heq
          dsimp only at heq
          omega
      | some q =>
          rw [hi, hj] at heq
          rw [hi, UInt8.toNat_inj.1 (Int.ofNat_inj.1 heq)]

theorem nodup_rosterIDs (data : List UInt8) : (Client.rosterIDs data).Nodup := by
  have hall : ((List.range 256).map UInt8.ofNat).Nodup := by
    apply List.Nodup.map_on _ List.nodup_range
    intro i hi j hj heq
    have hnat := congrArg UInt8.toNat heq
    rw [List.mem_range] at hi hj
    rw [UInt8.toNat_ofNat', UInt8.toNat_ofNat'] at hnat
    omega
  exact hall.filter _

omit [ByteLike B] [FixedWidth B F 4] in
/-- The slot found for a sender who has one has the sender's ID. -/
theorem id_slotOf {g : GameState B F} {i : Fin 7} {senderID : UInt8}
    (h : (g.connectedPlayers i).id = senderID.toNat) :
    (g.connectedPlayers (slotOf g senderID)).id = senderID.toNat := by
  unfold slotOf
  cases hfind : (List.finRange 7).find?
      fun i => (g.connectedPlayers i).id == senderID.toNat with
  | none =>
      rw [List.find?_eq_none] at hfind
      exact absurd (beq_iff_eq.2 h) (hfind i (List.mem_finRange i))
  | some j =>
      have hone := List.find?_some hfind
      exact beq_iff_eq.1 hone

/-- A client that shows the other players: the game state and the figures of
the slots. As history: the last snapshot processed of every player, and whether
a snapshot was put into a slot since it got its ID, the last one by the player
with that ID. -/
structure ShownPlayers (B F : Type) where
  game : GameState B F
  npcs : Fin 7 → NPC
  latest : UInt8 → Option (Snapshot F)
  filled : Fin 7 → Bool

namespace ShownPlayers

/-- No slot has an ID, and no snapshot has been processed. -/
def start (game : GameState B F) (npcs : Fin 7 → NPC) : ShownPlayers B F where
  game := { game with connectedPlayers := fun i => { game.connectedPlayers i with id := -1 } }
  npcs := npcs
  latest := fun _ => none
  filled := fun _ => false

/-- The turns of `processPlayer` for some slots. -/
def showSlots (myId : UInt8) (slots : List (Fin 7)) (s : ShownPlayers B F) (w : GameWrites B) :
    GameWrites B :=
  slots.foldl (fun w i => processPlayer myId (s.npcs i) (s.game.connectedPlayers i) w) w

/-- The game before the turn of slot `i` in a tick. -/
def before (myId : UInt8) (i : Fin 7) (s : ShownPlayers B F) : GameWrites B :=
  s.showSlots myId ((List.finRange 7).take i.val) (.start s.game.process)

/-- The loop over the slots in `update`. -/
def tick (myId : UInt8) (s : ShownPlayers B F) : ShownPlayers B F :=
  { s with
    game := { s.game with
      process := (s.showSlots myId (List.finRange 7) (.start s.game.process)).process } }

/-- The IDs of a client list are given to the slots. -/
def rename (clientIDs : List UInt8) (s : ShownPlayers B F) : ShownPlayers B F :=
  { s with
    game := onClientListUpdate clientIDs s.game
    -- a slot with another ID keeps the snapshot of the old one
    filled := fun i => s.filled i && slotID clientIDs i == (s.game.connectedPlayers i).id }

/-- A snapshot has been put into the slot of its sender. -/
def receive (senderID : UInt8) (snap : Snapshot F) (game : GameState B F)
    (s : ShownPlayers B F) : ShownPlayers B F :=
  { s with
    game := game
    latest := Function.update s.latest senderID (some snap)
    -- slot 0 may have another ID than a sender who has no slot
    filled := fun i =>
      if i = slotOf s.game senderID then (s.game.connectedPlayers i).id == senderID.toNat
      else s.filled i }

/-- What can happen: a client list, a snapshot of a sender, a turn of `update`,
and a change of the game with its figures. -/
inductive Action (B F : Type) where
  | roster (data : List UInt8)
  | snapshot (senderID : UInt8) (snap : Snapshot F)
  | tick (myId : UInt8)
  | game (process : HobbitProcessAnalyzer B) (npcs : Fin 7 → NPC)

section run

variable [Zero F] [Add F] [LT F] [DecidableLT F]

def stepFn (states : LabelStates) (s : ShownPlayers B F) :
    Action B F → Option (ShownPlayers B F)
  | .roster data => some (s.rename (Client.rosterIDs data))
  | .snapshot senderID snap =>
    match readGameMessage states senderID
        ⟨(MainPlayer.writeSnap snap : BaseMessage B).message, s.game⟩ with
    | .ok _ after =>
      -- with the label disabled the snapshot is not processed
      if states.processLabel .connectedPlayerSnap then some (s.receive senderID snap after.game)
      else some { s with game := after.game }
    | .error _ _ => none
  | .tick myId => some (s.tick myId)
  | .game process npcs => some { s with game := { s.game with process := process }, npcs := npcs }

def step (states : LabelStates) : ShownPlayers B F → Action B F → ShownPlayers B F → Prop :=
  ofFn (stepFn states)

/-! ## What a slot holds -/

theorem step_snapshot {states : LabelStates}
    (enabled : states.processLabel .connectedPlayerSnap = true) (s : ShownPlayers B F)
    (senderID : UInt8) (snap : Snapshot F) :
    stepFn states s (.snapshot senderID snap) =
      some (s.receive senderID snap (s.game.putSnapshot (slotOf s.game senderID) snap)) := by
  unfold stepFn
  dsimp only
  rw [readGameMessage_writeSnap enabled]
  simp only [enabled, if_true]

/-- No two slots have the ID of the same player, and a slot that was filled by
its player has the last snapshot of that player. -/
structure Inv (s : ShownPlayers B F) : Prop where
  distinct : ∀ i j, (s.game.connectedPlayers i).id ≠ -1 →
    (s.game.connectedPlayers i).id = (s.game.connectedPlayers j).id → i = j
  fresh : ∀ i, s.filled i = true → ∃ p : UInt8, (s.game.connectedPlayers i).id = p.toNat ∧
    s.latest p = some (s.game.connectedPlayers i).snapshot

omit [ByteLike B] [FixedWidth B F 4] [Zero F] [Add F] [LT F] [DecidableLT F] in
theorem inv_start (game : GameState B F) (npcs : Fin 7 → NPC) : (start game npcs).Inv := by
  constructor
  · intro i j hid
    exact absurd rfl hid
  · intro i hfilled
    cases hfilled

omit [ByteLike B] [FixedWidth B F 4] [Zero F] [Add F] [LT F] [DecidableLT F] in
/-- A client list names nobody twice. -/
theorem inv_rename {s : ShownPlayers B F} (hs : s.Inv) {clientIDs : List UInt8}
    (hnodup : clientIDs.Nodup) : (s.rename clientIDs).Inv := by
  constructor
  · intro i j hid heq
    change slotID clientIDs i ≠ -1 at hid
    change slotID clientIDs i = slotID clientIDs j at heq
    exact eq_of_slotID_eq hnodup hid heq
  · intro i hfilled
    have hboth : s.filled i = true ∧ slotID clientIDs i = (s.game.connectedPlayers i).id := by
      simpa [rename] using hfilled
    rcases hs.fresh i hboth.1 with ⟨p, hid, hlatest⟩
    exact ⟨p, hboth.2.trans hid, hlatest⟩

omit [ByteLike B] [FixedWidth B F 4] [Zero F] [Add F] [LT F] [DecidableLT F] in
theorem inv_receive {s : ShownPlayers B F} (hs : s.Inv) (senderID : UInt8) (snap : Snapshot F) :
    (s.receive senderID snap (s.game.putSnapshot (slotOf s.game senderID) snap)).Inv := by
  have hids (i : Fin 7) :
      ((s.game.putSnapshot (slotOf s.game senderID) snap).connectedPlayers i).id =
        (s.game.connectedPlayers i).id := by
    unfold GameState.putSnapshot
    dsimp only
    split <;> exact rfl
  constructor
  · intro i j hid heq
    unfold receive at hid heq
    dsimp only at hid heq
    rw [hids] at hid
    rw [hids, hids] at heq
    exact hs.distinct i j hid heq
  · intro i hfilled
    unfold receive at hfilled ⊢
    dsimp only at hfilled ⊢
    rw [hids]
    by_cases hslot : i = slotOf s.game senderID
    · -- the slot of the sender has got the new snapshot
      rw [if_pos hslot, beq_iff_eq] at hfilled
      refine ⟨senderID, hfilled, ?_⟩
      rw [Function.update_self]
      simp [GameState.putSnapshot, hslot, ConnectedPlayer.withSnapshot, ConnectedPlayer.snapshot]
    · rw [if_neg hslot] at hfilled
      rcases hs.fresh i hfilled with ⟨p, hid, hlatest⟩
      have hne : p ≠ senderID := by
        -- the slot found for a sender who has one is the only one
        rintro rfl
        apply hslot
        apply hs.distinct
        · rw [hid]
          omega
        · rw [hid, id_slotOf hid]
      refine ⟨p, hid, ?_⟩
      rw [Function.update_of_ne hne, hlatest]
      simp [GameState.putSnapshot, hslot]

theorem step_snapshot_disabled {states : LabelStates}
    (disabled : states.processLabel .connectedPlayerSnap = false) (s : ShownPlayers B F)
    (senderID : UInt8) (snap : Snapshot F) :
    stepFn states s (.snapshot senderID snap) = some s := by
  unfold stepFn
  dsimp only
  have hsized : MainPlayer.Sized .connectedPlayerSnap (UInt8.ofNat 30) 30
      (MainPlayer.writeSnap snap : BaseMessage B).message := MainPlayer.sized_writeSnap snap
  rw [readGameMessage_sized hsized (by omega) (by decide) disabled]
  simp [disabled]

theorem inv_step {states : LabelStates} {s s' : ShownPlayers B F} {a : Action B F}
    (h : step states s a s') (hs : s.Inv) : s'.Inv := by
  cases a with
  | roster data =>
      cases h
      exact inv_rename hs (nodup_rosterIDs data)
  | snapshot senderID snap =>
      by_cases henabled : states.processLabel .connectedPlayerSnap = true
      · have hstep : stepFn states s (.snapshot senderID snap) = some s' := h
        rw [step_snapshot henabled] at hstep
        cases hstep
        exact inv_receive hs senderID snap
      · have hstep : stepFn states s (.snapshot senderID snap) = some s' := h
        rw [step_snapshot_disabled (Bool.not_eq_true _ ▸ henabled)] at hstep
        cases hstep
        exact hs
  | tick myId =>
      -- the slots stay as they are
      cases h
      exact ⟨hs.distinct, hs.fresh⟩
  | game process npcs =>
      cases h
      exact ⟨hs.distinct, hs.fresh⟩

/-! ## Whose snapshot is shown -/

/-- Every slot writes nothing in a tick, or the last snapshot processed of the
player whose ID it has. -/
def Attributed (myId : UInt8) (s : ShownPlayers B F) : Prop :=
  ∀ i, processPlayer myId (s.npcs i) (s.game.connectedPlayers i) (s.before myId i) =
      s.before myId i ∨
    ∃ p snap, (s.game.connectedPlayers i).id = p.toNat ∧ s.latest p = some snap ∧
      processPlayer myId (s.npcs i) (s.game.connectedPlayers i) (s.before myId i) =
        showSnapshot (s.npcs i) snap (s.before myId i)

/-- Into every slot that is shown in a tick a snapshot was put since it got its
ID, the last one by the player with that ID. -/
def ShowsFilled (myId : UInt8) (s : ShownPlayers B F) : Prop :=
  ∀ i, (s.game.connectedPlayers i).IsShown myId (s.before myId i) → s.filled i = true

instance (myId : UInt8) (s : ShownPlayers B F) : Decidable (s.ShowsFilled myId) :=
  inferInstanceAs (Decidable (∀ _, _ → _))

/-- In every run a tick shows the players as they sent themselves, if every slot
that it shows was filled by its own player since it got the ID. -/
theorem snapshots_attributed {states : LabelStates} {game : GameState B F} {npcs : Fin 7 → NPC}
    {as : List (Action B F)} {s : ShownPlayers B F}
    (h : Run (step states) (start game npcs) as s) {myId : UInt8} (hfilled : s.ShowsFilled myId) :
    s.Attributed myId := by
  have hinv := h.invariant (fun _ _ _ hs hi => inv_step hs hi) (inv_start game npcs)
  intro i
  rw [processPlayer_eq]
  by_cases hshown : (s.game.connectedPlayers i).IsShown myId (s.before myId i)
  · rcases hinv.fresh i (hfilled i hshown) with ⟨p, hid, hlatest⟩
    rw [if_pos hshown]
    exact .inr ⟨p, _, hid, hlatest, rfl⟩
  · rw [if_neg hshown]
    exact .inl rfl

end run

/-! ## A player who leaves -/

/-- A client in a game whose memory is zero, with nobody in its slots. -/
def alone : ShownPlayers UInt8 UInt32 := start freshGame fun _ => NPC.new

/-- A snapshot that differs from the others in its rotation. -/
def turned (rotationY : UInt32) : Snapshot UInt32 where
  level := 0
  animation := 0
  animFrame := 0
  lastAnimFrame := 0
  position := { x := 0, y := 0, z := 0 }
  rotationY := rotationY
  weapon := -1

/-- The clients 1, 2 and 3, the last one this client. -/
def threePlayers : List UInt8 := [1, 0, 0, 0, 2, 0, 0, 0, 3, 0, 0, 0]

/-- The clients 2 and 3. -/
def twoPlayers : List UInt8 := [2, 0, 0, 0, 3, 0, 0, 0]

theorem rosterIDs_threePlayers : Client.rosterIDs threePlayers = [1, 2, 3] := by decide

theorem rosterIDs_twoPlayers : Client.rosterIDs twoPlayers = [2, 3] := by decide

/-- The slots after a client list with three players and a snapshot of two of
them. -/
def together : ShownPlayers UInt8 UInt32 :=
  let s := alone.rename [1, 2, 3]
  let s := s.receive 1 (turned 5) (s.game.putSnapshot (slotOf s.game 1) (turned 5))
  s.receive 2 (turned 7) (s.game.putSnapshot (slotOf s.game 2) (turned 7))

/-- The run that leads there. -/
theorem run_together : Run (step fun _ => none) alone
    [.roster threePlayers, .snapshot 1 (turned 5), .snapshot 2 (turned 7)] together := by
  have enabled : LabelStates.processLabel (fun _ => none) .connectedPlayerSnap = true := rfl
  have hroster : step (fun _ => none) alone (.roster threePlayers)
      (alone.rename [1, 2, 3]) := by
    rw [← rosterIDs_threePlayers]
    exact rfl
  exact Run.snoc (Run.snoc (Run.single hroster) (step_snapshot enabled _ 1 (turned 5)))
    (step_snapshot enabled _ 2 (turned 7))

/-- Two players are shown as they sent themselves. -/
theorem together_attributed : together.Attributed 3 :=
  snapshots_attributed run_together (by decide)

/-- Player 1 leaves, and player 2 gets the slot with the snapshot of player 1. -/
theorem inherited_slot :
    ¬ ∀ as (s : ShownPlayers UInt8 UInt32) myId,
      Run (step fun _ => none) alone as s → s.Attributed myId := by
  intro hall
  have hroster : step (fun _ => none) together (.roster twoPlayers)
      (together.rename [2, 3]) := by
    rw [← rosterIDs_twoPlayers]
    exact rfl
  rcases hall _ _ 3 (Run.snoc run_together hroster) 0 with hnothing | ⟨p, snap, hid, hlast, hshown⟩
  · have hwrites := congrArg GameWrites.writes hnothing
    revert hwrites
    decide
  · -- the slot has the ID 2, but writes another rotation than player 2 has sent
    have hid' : ((2 : UInt8).toNat : Int) = p.toNat := hid
    obtain rfl : p = 2 := UInt8.toNat_inj.1 (Int.ofNat_inj.1 hid').symm
    obtain rfl : turned 7 = snap := Option.some.inj hlast
    have hwrites := congrArg GameWrites.writes hshown
    revert hwrites
    decide

end ShownPlayers

end HobbitSynchrony
