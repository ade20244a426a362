import HobbitSynchrony.ConnectedPlayers
import HobbitSynchrony.LevelEntry
import HobbitSynchrony.MessageStreams
import HobbitSynchrony.NpcGuids
import HobbitSynchrony.SentMessages
import HobbitSynchrony.SnapshotInbox

/-! # The game, played together

The server, its clients and their games in one transition system. On a client
the receive thread, the update thread of `HobbitClient`, the thread that watches
the game, and the game itself take their steps in any order.

* `Program`: a `HobbitClient`, without its `Client`;
* `Program.update`, `UpdateCases`: a step of the update thread, in
  `HobbitClient::update`, and what it can be;
* `World`: the network, and the program behind every socket;
* `World.next`, `step`: the steps of all parties;
* `step_cases`: what a step can be;
* `serving_run`: the server, in whole runs.
-/

namespace HobbitSynchrony

open Transition

namespace Multiplayer

/-- Where the update thread is: not made yet or ended, at the head of its loop,
in `readMessage`, at a slot, before a message that is to be sent. A handler that
throws ends the program; `moved` is left behind on a socket whose client has
joined again. -/
inductive UpdatePoint where
  | moved
  | ended
  | waiting
  | texts
  | events
  | handle (copy : List (UInt8 × BaseMessage UInt8))
  | clear (copy : List (UInt8 × BaseMessage UInt8))
  | players (i : ℕ)
  | writing (messages : List (BaseMessage UInt8))
  | thrown

/-- A `HobbitClient`: the game, the figures of the slots, what is known of Bilbo,
the GUIDs of the figures, the flags, and its update thread. As history: who has
filled a slot last, and the snapshots it has written. -/
structure Program (F : Type) where
  game : GameState UInt8 F
  npcs : Fin 7 → NPC
  ptrs : MainPlayer.BilboPtrs
  guids : Fin 7 → UInt64
  messageLabelStates : LabelStates
  running : Bool
  processMessages : Bool
  thread : UpdatePoint
  filledBy : Fin 7 → Option UInt8
  snapshots : List (Snapshot F)

/-- The labels of the constructor, all enabled. -/
def initialStates : LabelStates
  | .other _ => none
  | _ => some true

/-- The network, and the program behind every socket. -/
structure World (F : Type) where
  net : Net
  program : ℕ → Program F

/-- What can happen: a step of the server, a receive thread or a connection; a
client that joins, for the first time or again; the end of `HobbitClient::start`;
a change of the game; a level that is entered or left; a label that is enabled or
disabled; a step of the update thread. -/
inductive Action (F : Type) where
  | net (a : HobbitSynchrony.Action)
  | join (ipAddress : IpText) (sinPort : UInt16) (game : GameState UInt8 F)
    (guids : Fin 7 → UInt64)
  | rejoin (ipAddress : IpText) (sinPort : UInt16) (prev : ℕ)
  | start (n : ℕ)
  | play (n : ℕ) (process : HobbitProcessAnalyzer UInt8)
  | enterNewLevel (n : ℕ)
  | exitLevel (n : ℕ)
  | setLabel (n : ℕ) (label : DataLabel) (enable : Bool)
  | update (n : ℕ)

variable {F : Type}

namespace Program

/-- `HobbitClient()`. The slots have no IDs, and nothing has been listed; other
members are as they come. -/
def new (game : GameState UInt8 F) (guids : Fin 7 → UInt64) : Program F where
  game := { game with
    mainPlayer := { game.mainPlayer with enemies := [], inventory := [] }
    connectedPlayers := fun i => { game.connectedPlayers i with id := -1 } }
  npcs := fun _ => NPC.new
  ptrs := { bilboPosXPTR := 0, bilboAnimPTR := 0 }
  guids := guids
  messageLabelStates := initialStates
  running := false
  processMessages := false
  thread := .ended
  filledBy := fun _ => none
  snapshots := []

/-- `onClientListUpdate`. -/
def onClientListUpdate (clientIDs : List UInt8) (h : Program F) : Program F :=
  { h with
    game := HobbitSynchrony.onClientListUpdate clientIDs h.game
    running := !clientIDs.isEmpty }

/-- `setMessageLabelProcessing`. -/
def setMessageLabelProcessing (label : DataLabel) (enable : Bool) (h : Program F) : Program F :=
  { h with messageLabelStates := Function.update h.messageLabelStates label (some enable) }

section steps

variable [FixedWidth UInt8 F 4] [Zero F]

/-- `onEnterNewLevel`, with a GUID for every slot. -/
def onEnterNewLevel (h : Program F) : Program F :=
  let process := h.game.process.updateObjectStackAddress
  { h with
    game := { h.game with
      process := process
      mainPlayer := MainPlayer.readPtrs process h.game.mainPlayer }
    npcs := fun i => (h.npcs i).setNCP process (h.guids i)
    ptrs := MainPlayer.readBilboPtrs process
    processMessages := true }

variable [Add F] [LT F] [DecidableLT F]

/-- The message puts a snapshot into a slot. -/
def PutsSnapshot (states : LabelStates) (message : List UInt8) : Bool :=
  message.head?.map DataLabel.ofByte = some .connectedPlayerSnap &&
    states.processLabel .connectedPlayerSnap

/-- Who has filled the slots, when the message has been read. -/
def filled (senderID : UInt8) (message : List UInt8) (h : Program F) : Fin 7 → Option UInt8 :=
  if PutsSnapshot h.messageLabelStates message then
    Function.update h.filledBy (slotOf h.game senderID) (some senderID)
  else h.filledBy

/-- `readGameMessage`, and `next` behind it. -/
def readGameMessage (senderID : UInt8) (message : List UInt8) (next : UpdatePoint)
    (h : Program F) : Program F :=
  match HobbitSynchrony.readGameMessage h.messageLabelStates senderID ⟨message, h.game⟩ with
  | .ok _ after =>
    { h with game := after.game, thread := next, filledBy := h.filled senderID message }
  | .error _ after => { h with game := after.game, thread := .thrown }

variable [Sub F] [BEq F]

/-- A step of the update thread that sends nothing, with what it leaves in the
inboxes of the client. Whether the game is on a level is an input: a turn that
finds it is not does nothing. -/
def update (c : Client) (h : Program F) : Option (Client × Program F) :=
  match h.thread with
  | .moved => none
  | .ended => none
  | .waiting =>
    if !h.running then some (c, { h with thread := .ended })
    else if h.processMessages then some (c, { h with thread := .texts })
    else none
  -- `readMessage`
  | .texts =>
    if 0 < c.frontTextMessage.message.length then
      some (c.popFrontTextMessage, { h with thread := .events })
    else some (c, { h with thread := .events })
  | .events =>
    if 0 < c.eventMessagesSize then
      let eventMessageOpt := c.frontEventMessage
      if 0 < eventMessageOpt.message.length then
        let h := h.readGameMessage eventMessageOpt.senderID eventMessageOpt.message .events
        match h.thread with
        | .thrown => some (c, h)
        | _ => some (c.popFrontEventMessage, h)
      -- nothing is popped
      else some (c, h)
    else some (c, { h with thread := .handle c.snapMessage })
  | .handle ((senderID, msg) :: copy) =>
    some (c, h.readGameMessage senderID msg.message (.clear copy))
  | .handle [] => some (c, { h with thread := .players 0 })
  | .clear copy => some (c.clearSnapMessage, { h with thread := .handle copy })
  -- the loop over the slots, and the messages of `mainPlayer.write()`
  | .players i =>
    if hi : i < 7 then
      let process := (processPlayer c.clientID (h.npcs ⟨i, hi⟩) (h.game.connectedPlayers ⟨i, hi⟩)
        (.start h.game.process)).process
      some (c, { h with game := { h.game with process := process }, thread := .players (i + 1) })
    else
      let (messages, mainPlayer) := MainPlayer.write h.game.process h.ptrs h.game.mainPlayer
      some (c, { h with
        game := { h.game with mainPlayer := mainPlayer }
        thread := .writing messages
        snapshots := h.snapshots ++ [MainPlayer.processData h.game.process h.ptrs] })
  | .writing [] => some (c, { h with thread := .waiting })
  | .writing (_ :: _) => none
  | .thrown => none

/-! ## What a step of the update thread can be -/

/-- The steps of the update thread that send nothing, by its point. -/
inductive UpdateCases (c : Client) (h : Program F) : Client → Program F → Prop where
  | ended (hthread : h.thread = .waiting) (hrunning : h.running = false) :
      UpdateCases c h c { h with thread := .ended }
  | turn (hthread : h.thread = .waiting) (hprocess : h.processMessages = true) :
      UpdateCases c h c { h with thread := .texts }
  | text (hthread : h.thread = .texts) :
      UpdateCases c h c.popFrontTextMessage { h with thread := .events }
  | noText (hthread : h.thread = .texts) :
      UpdateCases c h c { h with thread := .events }
  | event (hthread : h.thread = .events) (hsize : 0 < c.eventMessagesSize)
      (hpos : 0 < c.frontEventMessage.message.length) :
      UpdateCases c h c.popFrontEventMessage (h.readGameMessage c.frontEventMessage.senderID
        c.frontEventMessage.message .events)
  | throws (hthread : h.thread = .events) (hsize : 0 < c.eventMessagesSize)
      (hthrown : (h.readGameMessage c.frontEventMessage.senderID c.frontEventMessage.message
        .events).thread = .thrown) :
      UpdateCases c h c (h.readGameMessage c.frontEventMessage.senderID
        c.frontEventMessage.message .events)
  | spin (hthread : h.thread = .events) (hsize : 0 < c.eventMessagesSize)
      (hempty : c.frontEventMessage.message = []) : UpdateCases c h c h
  | copy (hthread : h.thread = .events) (hsize : ¬ 0 < c.eventMessagesSize) :
      UpdateCases c h c { h with thread := .handle c.snapMessage }
  | handle (senderID : UInt8) (msg : BaseMessage UInt8) (copy : List (UInt8 × BaseMessage UInt8))
      (hthread : h.thread = .handle ((senderID, msg) :: copy)) :
      UpdateCases c h c (h.readGameMessage senderID msg.message (.clear copy))
  | handled (hthread : h.thread = .handle []) :
      UpdateCases c h c { h with thread := .players 0 }
  | clear (copy : List (UInt8 × BaseMessage UInt8)) (hthread : h.thread = .clear copy) :
      UpdateCases c h c.clearSnapMessage { h with thread := .handle copy }
  | player (i : ℕ) (hi : i < 7) (hthread : h.thread = .players i) :
      UpdateCases c h c { h with
        game := { h.game with
          process := (processPlayer c.clientID (h.npcs ⟨i, hi⟩)
            (h.game.connectedPlayers ⟨i, hi⟩) (.start h.game.process)).process }
        thread := .players (i + 1) }
  | write (i : ℕ) (hthread : h.thread = .players i) :
      UpdateCases c h c { h with
        game := { h.game with
          mainPlayer := (MainPlayer.write h.game.process h.ptrs h.game.mainPlayer).2 }
        thread := .writing (MainPlayer.write h.game.process h.ptrs h.game.mainPlayer).1
        snapshots := h.snapshots ++ [MainPlayer.processData h.game.process h.ptrs] }
  | written (hthread : h.thread = .writing []) :
      UpdateCases c h c { h with thread := .waiting }

theorem update_cases {c c' : Client} {h h' : Program F} (hupdate : h.update c = some (c', h')) :
    UpdateCases c h c' h' := by
  unfold update at hupdate
  split at hupdate
  next => cases hupdate
  next => cases hupdate
  next hthread =>
    split at hupdate
    next hrunning =>
      cases hupdate
      exact .ended hthread (by simpa using hrunning)
    next =>
      split at hupdate
      next hprocess =>
        cases hupdate
        exact .turn hthread hprocess
      next => cases hupdate
  next hthread =>
    split at hupdate
    · cases hupdate
      exact .text hthread
    · cases hupdate
      exact .noText hthread
  next hthread =>
    split at hupdate
    next hsize =>
      dsimp only at hupdate
      split at hupdate
      next hpos =>
        split at hupdate
        next hthrown =>
          cases hupdate
          exact .throws hthread hsize hthrown
        next =>
          cases hupdate
          exact .event hthread hsize hpos
      next hempty =>
        cases hupdate
        exact .spin hthread hsize (List.length_eq_zero_iff.1 (by omega))
    next hsize =>
      cases hupdate
      exact .copy hthread hsize
  next senderID msg copy hthread =>
    cases hupdate
    exact .handle senderID msg copy hthread
  next hthread =>
    cases hupdate
    exact .handled hthread
  next copy hthread =>
    cases hupdate
    exact .clear copy hthread
  next i hthread =>
    split at hupdate
    next hi =>
      cases hupdate
      exact .player i hi hthread
    next =>
      cases hupdate
      exact .write i hthread
  next hthread =>
    cases hupdate
    exact .written hthread
  next => cases hupdate
  next => cases hupdate

/-- The update thread takes messages out of the inboxes, and puts none in. -/
theorem inboxMeets_update {P : BaseMessage UInt8 → Prop} {c c' : Client} {h h' : Program F}
    (hc : InboxMeets P c) (hupdate : h.update c = some (c', h')) : InboxMeets P c' := by
  cases update_cases hupdate with
  | text hthread => exact ⟨fun m hm => hc.text m (List.mem_of_mem_tail hm), hc.event, hc.snapshot⟩
  | event hthread hsize hpos =>
      exact ⟨hc.text, fun m hm => hc.event m (List.mem_of_mem_tail hm), hc.snapshot⟩
  | clear copy hthread => exact ⟨hc.text, hc.event, fun _ _ hmsg => by cases hmsg⟩
  | _ => exact hc

end steps

end Program

namespace World

/-- Nobody has joined. The programs behind sockets that are not accepted yet do
not matter. -/
def start (program : Program F) : World F where
  net := Net.start
  program := fun _ => program

/-- The listeners of the clients, in a step of the network. -/
def heard (a : HobbitSynchrony.Action) (w : World F) : ℕ → Program F :=
  match a with
  | .deliver n =>
    match (w.net.conn n).inFlight.head?.bind fun frame => rosterData frame.body with
    | some data =>
      Function.update w.program n ((w.program n).onClientListUpdate (Client.rosterIDs data))
    | none => w.program
  | .lose n => Function.update w.program n ((w.program n).onClientListUpdate [])
  | _ => w.program

/-- The listeners leave a program alone, or give its slots other IDs. -/
theorem heard_cases (a : HobbitSynchrony.Action) (w : World F) (n : ℕ) :
    w.heard a n = w.program n ∨
      ∃ clientIDs, w.heard a n = (w.program n).onClientListUpdate clientIDs := by
  have hupdate : ∀ (m : ℕ) (clientIDs : List UInt8),
      Function.update w.program m ((w.program m).onClientListUpdate clientIDs) n =
          w.program n ∨
        ∃ ids, Function.update w.program m ((w.program m).onClientListUpdate clientIDs) n =
          (w.program n).onClientListUpdate ids := by
    intro m clientIDs
    by_cases hnm : n = m
    · subst hnm
      rw [Function.update_self]
      exact .inr ⟨clientIDs, rfl⟩
    · rw [Function.update_of_ne hnm]
      exact .inl rfl
  unfold heard
  cases a with
  | deliver m =>
      dsimp only
      cases (w.net.conn m).inFlight.head?.bind fun frame => rosterData frame.body with
      | none => exact .inl rfl
      | some data => exact hupdate m _
  | lose m => exact hupdate m []
  | _ => exact .inl rfl

/-- The program of client `n` changes. -/
def change (n : ℕ) (f : Program F → Program F) (w : World F) : Option (World F) :=
  if n < w.net.accepts then some { w with program := Function.update w.program n (f (w.program n)) }
  else none

theorem change_eq {w w' : World F} {n : ℕ} {f : Program F → Program F}
    (h : w.change n f = some w') : n < w.net.accepts ∧
      w' = ⟨w.net, Function.update w.program n (f (w.program n))⟩ := by
  unfold change at h
  rw [Option.ite_none_right_eq_some] at h
  exact ⟨h.1, (Option.some.inj h.2).symm⟩

variable [FixedWidth UInt8 F 4] [Zero F] [Add F] [Sub F] [BEq F] [LT F] [DecidableLT F]

/-- A step of the update thread of client `n`. -/
def update (n : ℕ) (w : World F) : Option (World F) :=
  let h := w.program n
  if n < w.net.accepts then
    match h.thread with
    -- the loop of `writeMessage` over the messages
    | .writing (msg :: messages) =>
      let program := Function.update w.program n { h with thread := .writing messages }
      if 0 < msg.message.length then
        let e := { msg with senderID := (w.net.conn n).client.clientID }
        (w.net.next (.clientSend n (serializeMessage e))).map fun net =>
          { net := net, program := program }
      else some { w with program := program }
    | _ =>
      (h.update (w.net.conn n).client).map fun r =>
        { net := w.net.modify n fun c => { c with client := r.1 }
          program := Function.update w.program n r.2 }
  else none

/-- The steps. The server and the clients' sockets go on as before; a client sends
what its program writes. -/
def next (w : World F) : Action F → Option (World F)
  | .net (.accept _ _ _) => none
  | .net (.clientSend _ _) => none
  | .net a => (w.net.next a).map fun net => { net := net, program := w.heard a }
  | .join ipAddress sinPort game guids =>
    (w.net.next (.accept ipAddress sinPort none)).map fun net =>
      { net := net, program := Function.update w.program w.net.accepts (.new game guids) }
  | .rejoin ipAddress sinPort prev =>
    (w.net.next (.accept ipAddress sinPort (some prev))).map fun net =>
      { net := net
        program := Function.update
          (Function.update w.program prev { w.program prev with thread := .moved })
          w.net.accepts (w.program prev) }
  -- a thread that was not joined cannot be assigned over
  | .start n =>
    match (w.program n).thread with
    | .ended => w.change n fun h => { h with running := true, thread := .waiting }
    | _ => none
  | .play n process => w.change n fun h => { h with game := { h.game with process := process } }
  | .enterNewLevel n => w.change n Program.onEnterNewLevel
  | .exitLevel n => w.change n fun h => { h with processMessages := false }
  | .setLabel n label enable => w.change n (Program.setMessageLabelProcessing label enable)
  | .update n => w.update n

def step : World F → Action F → World F → Prop := ofFn next

/-! ## What a step can be -/

/-- The steps, with what they do to the network and to the programs. -/
inductive Cases (w : World F) : Action F → World F → Prop where
  | net (a : HobbitSynchrony.Action) (net : Net) (h : Step w.net a net)
      (hsend : ∀ n body, a ≠ .clientSend n body)
      (haccept : ∀ ipAddress sinPort prev, a ≠ .accept ipAddress sinPort prev) :
      Cases w (.net a) ⟨net, w.heard a⟩
  | join (ipAddress : IpText) (sinPort : UInt16) (game : GameState UInt8 F)
      (guids : Fin 7 → UInt64) (net : Net) (h : Step w.net (.accept ipAddress sinPort none) net) :
      Cases w (.join ipAddress sinPort game guids)
        ⟨net, Function.update w.program w.net.accepts (.new game guids)⟩
  | rejoin (ipAddress : IpText) (sinPort : UInt16) (prev : ℕ) (net : Net)
      (h : Step w.net (.accept ipAddress sinPort (some prev)) net) :
      Cases w (.rejoin ipAddress sinPort prev)
        ⟨net, Function.update
          (Function.update w.program prev { w.program prev with thread := .moved })
          w.net.accepts (w.program prev)⟩
  | start (n : ℕ) (hn : n < w.net.accepts) (hthread : (w.program n).thread = .ended) :
      Cases w (.start n) ⟨w.net, Function.update w.program n
        { w.program n with running := true, thread := .waiting }⟩
  | play (n : ℕ) (process : HobbitProcessAnalyzer UInt8) (hn : n < w.net.accepts) :
      Cases w (.play n process) ⟨w.net, Function.update w.program n
        { w.program n with game := { (w.program n).game with process := process } }⟩
  | enterNewLevel (n : ℕ) (hn : n < w.net.accepts) :
      Cases w (.enterNewLevel n)
        ⟨w.net, Function.update w.program n (w.program n).onEnterNewLevel⟩
  | exitLevel (n : ℕ) (hn : n < w.net.accepts) :
      Cases w (.exitLevel n) ⟨w.net, Function.update w.program n
        { w.program n with processMessages := false }⟩
  | setLabel (n : ℕ) (label : DataLabel) (enable : Bool) (hn : n < w.net.accepts) :
      Cases w (.setLabel n label enable) ⟨w.net, Function.update w.program n
        ((w.program n).setMessageLabelProcessing label enable)⟩
  | send (n : ℕ) (msg : BaseMessage UInt8) (messages : List (BaseMessage UInt8)) (net : Net)
      (hn : n < w.net.accepts) (hthread : (w.program n).thread = .writing (msg :: messages))
      (h : Step w.net (.clientSend n (serializeMessage
        { msg with senderID := (w.net.conn n).client.clientID })) net) :
      Cases w (.update n) ⟨net, Function.update w.program n
        { w.program n with thread := .writing messages }⟩
  | pass (n : ℕ) (msg : BaseMessage UInt8) (messages : List (BaseMessage UInt8))
      (hn : n < w.net.accepts) (hthread : (w.program n).thread = .writing (msg :: messages))
      (hempty : msg.message = []) :
      Cases w (.update n) ⟨w.net, Function.update w.program n
        { w.program n with thread := .writing messages }⟩
  | update (n : ℕ) (c : Client) (h : Program F) (hn : n < w.net.accepts)
      (hupdate : (w.program n).update (w.net.conn n).client = some (c, h)) :
      Cases w (.update n) ⟨w.net.modify n fun conn => { conn with client := c },
        Function.update w.program n h⟩

theorem update_cases {w w' : World F} {n : ℕ} (h : w.update n = some w') :
    Cases w (.update n) w' := by
  unfold update at h
  dsimp only at h
  rw [Option.ite_none_right_eq_some] at h
  rcases h with ⟨hn, h⟩
  split at h
  next msg messages hthread =>
    split at h
    next hpos =>
      rcases Option.map_eq_some_iff.1 h with ⟨net, hnet, rfl⟩
      exact .send n msg messages net hn hthread (Net.step_of_next hnet)
    next hpos =>
      cases h
      exact .pass n msg messages hn hthread (List.length_eq_zero_iff.1 (by omega))
  next =>
    rcases Option.map_eq_some_iff.1 h with ⟨⟨c, program⟩, hupdate, rfl⟩
    exact .update n c program hn hupdate

theorem step_cases {w w' : World F} {a : Action F} (h : step w a w') : Cases w a w' := by
  cases a with
  | net a =>
      -- clients send and join by actions of their own
      have hstep : (w.net.next a).map (fun net => (⟨net, w.heard a⟩ : World F)) = some w' ∧
          (∀ n body, a ≠ .clientSend n body) ∧
            ∀ ipAddress sinPort prev, a ≠ .accept ipAddress sinPort prev := by
        cases a with
        | accept ipAddress sinPort prev => cases h
        | clientSend n body => cases h
        | _ => exact ⟨h, nofun, nofun⟩
      rcases hstep with ⟨hmap, hsend, haccept⟩
      rcases Option.map_eq_some_iff.1 hmap with ⟨net, hnet, rfl⟩
      exact .net a net (Net.step_of_next hnet) hsend haccept
  | join ipAddress sinPort game guids =>
      rcases Option.map_eq_some_iff.1 h with ⟨net, hnet, rfl⟩
      exact .join ipAddress sinPort game guids net (Net.step_of_next hnet)
  | rejoin ipAddress sinPort prev =>
      rcases Option.map_eq_some_iff.1 h with ⟨net, hnet, rfl⟩
      exact .rejoin ipAddress sinPort prev net (Net.step_of_next hnet)
  | start n =>
      unfold step ofFn next at h
      dsimp only at h
      split at h
      next hthread =>
        rcases change_eq h with ⟨hn, rfl⟩
        exact .start n hn hthread
      next => cases h
  | play n process =>
      have hchange : w.change n (fun h => { h with game := { h.game with process := process } }) =
        some w' := h
      rcases change_eq hchange with ⟨hn, rfl⟩
      exact .play n process hn
  | enterNewLevel n =>
      rcases change_eq h with ⟨hn, rfl⟩
      exact .enterNewLevel n hn
  | exitLevel n =>
      have hchange : w.change n (fun h => { h with processMessages := false }) = some w' := h
      rcases change_eq hchange with ⟨hn, rfl⟩
      exact .exitLevel n hn
  | setLabel n label enable =>
      rcases change_eq h with ⟨hn, rfl⟩
      exact .setLabel n label enable hn
  | update n => exact update_cases h

end World

/-! ## The server, in whole runs -/

section server

variable [FixedWidth UInt8 F 4] [Zero F] [Add F] [Sub F] [BEq F] [LT F] [DecidableLT F]

/-- A step that leaves fewer than 256 accepts. -/
theorem serving_step {w w' : World F} {a : Action F} (h : World.step w a w')
    (hs : w.net.accepts < 256 → Serving w.net) (hfew : w'.net.accepts < 256) :
    Serving w'.net := by
  have hnet : ∀ {b : HobbitSynchrony.Action} {net : Net}, Step w.net b net →
      net.accepts < 256 → Serving net :=
    fun hb hfew => (hs (hb.accepts_le.trans_lt hfew)).step hb hfew
  cases World.step_cases h with
  | net _ _ hb | join _ _ _ _ _ hb | rejoin _ _ _ _ hb | send _ _ _ _ _ _ hb =>
      exact hnet hb hfew
  | start | play | enterNewLevel | exitLevel | setLabel | pass => exact hs hfew
  | update n c program hn hupdate => exact (hs hfew).withClient n c

/-- The server, as long as it has accepted fewer than 256 sockets. -/
theorem serving_run {program : Program F} {as : List (Action F)} {w : World F}
    (hrun : Run World.step (World.start program) as w) (hfew : w.net.accepts < 256) :
    Serving w.net :=
  (hrun.invariant (fun _ _ _ hstep hs => serving_step hstep hs) fun _ => serving_start :
    w.net.accepts < 256 → Serving w.net) hfew

end server

end Multiplayer

end HobbitSynchrony
