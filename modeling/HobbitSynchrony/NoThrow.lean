import HobbitSynchrony.EventInbox
import HobbitSynchrony.MessageChanges
import HobbitSynchrony.Multiplayer
import HobbitSynchrony.WrittenMessages

/-! # Clients do not throw among themselves

Nothing above `HobbitClient::update` catches what a handler throws. If all clients
are this program, and no level has more enemies than an event and its size byte can
hold, no handler throws, whatever the order of the steps of all parties.

* `Manageable`: levels with at most `limit` enemies;
* `Good`: the invariant of a program;
* `good_update`: a step of the update thread keeps it;
* `Honest`, `honest_step`: the invariant of all clients and of the network;
* `never_throws`: no update thread ever throws.
-/

namespace HobbitSynchrony

open Transition HobbitProcessAnalyzer

namespace Multiplayer

/-- The update thread has begun a turn. -/
def UpdatePoint.Active : UpdatePoint → Prop
  | .moved | .ended | .waiting | .thrown => False
  | _ => True

/-- The snapshots that the update thread has copied and not handled yet. -/
def UpdatePoint.copied : UpdatePoint → List (UInt8 × BaseMessage UInt8)
  | .handle copy | .clear copy => copy
  | _ => []

/-- The messages that it is going to send. -/
def UpdatePoint.messages : UpdatePoint → List (BaseMessage UInt8)
  | .writing messages => messages
  | _ => []

variable {F : Type} [FixedWidth UInt8 F 4] [Zero F] [Sub F] [BEq F] [LT F] [DecidableLT F]

/-- A level that is entered has at most `limit` enemies, and with more than 20 of
them the label of their healths stays enabled. -/
def Manageable (limit : ℕ) (w : World F) : Action F → Prop
  | .enterNewLevel n =>
    (w.program n).onEnterNewLevel.game.mainPlayer.enemies.length ≤ limit
  | .setLabel _ label enable => limit ≤ 20 ∨ label ≠ .enemiesHealth ∨ enable = true
  | _ => True

instance (limit : ℕ) (w : World F) (a : Action F) : Decidable (Manageable limit w a) := by
  unfold Manageable
  split <;> infer_instance

/-- The enemies of a program are few, its inventory has the 56 items as soon as
messages are processed, and what it is about to read and to send was written by
this program. -/
structure Good (limit : ℕ) (h : Program F) : Prop where
  few : h.game.mainPlayer.enemies.length ≤ limit
  items : h.processMessages = true ∨ h.thread.Active → 56 ≤ h.game.mainPlayer.inventory.length
  label : limit ≤ 20 ∨ limit ≤ 255 ∧ h.messageLabelStates.processLabel .enemiesHealth = true
  copied : ∀ snap ∈ h.thread.copied, Written F limit snap.2
  messages : ∀ msg ∈ h.thread.messages, Written F limit msg
  returned : h.thread ≠ .thrown

/-- All clients and all messages. -/
structure Honest (limit : ℕ) (w : World F) : Prop where
  carries : Carries (fun _ => Written F limit) (Written F limit) w.net
  good : ∀ n < w.net.accepts, Good limit (w.program n)

/-! ## What keeps a program good -/

/-- The invariant, at another point of the thread and in another game. -/
theorem Good.at {limit : ℕ} {h h' : Program F} (hgood : Good limit h)
    (henemies : h'.game.mainPlayer.enemies.length = h.game.mainPlayer.enemies.length)
    (hitems : h'.game.mainPlayer.inventory.length = h.game.mainPlayer.inventory.length)
    (hstates : h'.messageLabelStates = h.messageLabelStates)
    (hactive : h'.processMessages = true ∨ h'.thread.Active →
      h.processMessages = true ∨ h.thread.Active)
    (hcopied : ∀ snap ∈ h'.thread.copied, Written F limit snap.2)
    (hmessages : ∀ msg ∈ h'.thread.messages, Written F limit msg)
    (hreturned : h'.thread ≠ .thrown) : Good limit h' where
  few := henemies ▸ hgood.few
  items := by
    rw [hitems]
    exact fun h => hgood.items (hactive h)
  label := hstates ▸ hgood.label
  copied := hcopied
  messages := hmessages
  returned := hreturned

/-- The program goes on to another point, and nothing else changes. -/
theorem Good.goto {limit : ℕ} {h : Program F} (hgood : Good limit h) {point : UpdatePoint}
    (hactive : point.Active → h.processMessages = true ∨ h.thread.Active)
    (hcopied : ∀ snap ∈ point.copied, Written F limit snap.2)
    (hmessages : ∀ msg ∈ point.messages, Written F limit msg)
    (hreturned : point ≠ .thrown) : Good limit { h with thread := point } :=
  hgood.at rfl rfl rfl (fun h => h.elim .inl hactive) hcopied hmessages hreturned

/-- A client list gives the slots other IDs. -/
theorem Good.onClientListUpdate {limit : ℕ} {h : Program F} (hgood : Good limit h)
    (clientIDs : List UInt8) : Good limit (h.onClientListUpdate clientIDs) :=
  hgood.at rfl rfl rfl id hgood.copied hgood.messages hgood.returned

theorem good_new {limit : ℕ} (hlimit : limit ≤ 255) (game : GameState UInt8 F)
    (guids : Fin 7 → UInt64) : Good limit (Program.new game guids) where
  few := Nat.zero_le limit
  items := by
    rintro (hprocess | hactive)
    · cases hprocess
    · exact hactive.elim
  label := .inr ⟨hlimit, rfl⟩
  copied := nofun
  messages := nofun
  returned := nofun

/-- A level entry lists the enemies anew, and the items. -/
theorem Good.onEnterNewLevel {limit : ℕ} {h : Program F} (hgood : Good limit h)
    (hfew : h.onEnterNewLevel.game.mainPlayer.enemies.length ≤ limit) :
    Good limit h.onEnterNewLevel where
  few := hfew
  items := by
    intro _
    simp only [Program.onEnterNewLevel, MainPlayer.readPtrs, List.length_append, List.length_map,
      List.length_range]
    omega
  label := hgood.label
  copied := hgood.copied
  messages := hgood.messages
  returned := hgood.returned

theorem Good.setLabel {limit : ℕ} {h : Program F} (hgood : Good limit h) {label : DataLabel}
    {enable : Bool} (hmanageable : limit ≤ 20 ∨ label ≠ .enemiesHealth ∨ enable = true) :
    Good limit (h.setMessageLabelProcessing label enable) where
  few := hgood.few
  items := hgood.items
  label := by
    rcases hgood.label with htwenty | ⟨hlimit, henabled⟩
    · exact .inl htwenty
    · rcases hmanageable with htwenty | hkeep
      · exact .inl htwenty
      · refine .inr ⟨hlimit, ?_⟩
        unfold Program.setMessageLabelProcessing LabelStates.processLabel
        dsimp only
        by_cases hlabel : label = .enemiesHealth
        · subst hlabel
          rw [Function.update_self, hkeep.resolve_left (not_not.2 rfl)]
          exact rfl
        · rw [Function.update_of_ne (Ne.symm hlabel)]
          exact henabled
  copied := hgood.copied
  messages := hgood.messages
  returned := hgood.returned

/-- A report records the healths of the enemies, and lists the same ones. -/
theorem enemies_write (process : HobbitProcessAnalyzer UInt8) (ptrs : MainPlayer.BilboPtrs)
    (player : MainPlayer F) : (MainPlayer.write process ptrs player).2.enemies =
      player.enemies.map (recordHealth process) := by
  have hloop := MainPlayer.writeEnemies_block process player.enemies
    (ByteLike.ofByte DataLabel.enemiesHealth.toByte : UInt8) 4 [] 0
  rw [← MainPlayer.blockHead_eq] at hloop
  unfold MainPlayer.write
  dsimp only
  rw [MainPlayer.writeInventoryEvent_snd]
  unfold MainPlayer.writeEnemiesEvent
  rw [hloop]
  dsimp only
  rw [apply_ite Prod.snd, ite_self]

theorem enemies_write_fst (process : HobbitProcessAnalyzer UInt8) (ptrs : MainPlayer.BilboPtrs)
    (player : MainPlayer F) : (MainPlayer.write process ptrs player).2.enemies.map Prod.fst =
      player.enemies.map Prod.fst := by
  rw [enemies_write, List.map_map]
  apply List.map_congr_left
  intro e _
  unfold Function.comp recordHealth
  split
  · rfl
  · rfl

variable [Add F]

/-! ## A message is handled -/

omit [Zero F] [Add F] [Sub F] [BEq F] [LT F] [DecidableLT F] in
/-- A message keeps the numbers of enemies and items. -/
theorem changeRelation_lengths : ChangeRelation fun g g' : GameState UInt8 F =>
    g'.mainPlayer.enemies.length = g.mainPlayer.enemies.length ∧
      g'.mainPlayer.inventory.length = g.mainPlayer.inventory.length where
  refl := fun _ => ⟨rfl, rfl⟩
  trans := fun h h' => ⟨h'.1.trans h.1, h'.2.trans h.2⟩
  slot := fun _ _ _ _ => ⟨rfl, rfl⟩
  level := fun _ _ => ⟨rfl, rfl⟩
  enemy := fun _ _ _ _ _ => ⟨List.length_set, rfl⟩
  item := fun _ _ _ _ _ => ⟨rfl, List.length_set⟩

omit [Sub F] [BEq F] in
/-- A message that can be read leads on, and changes nothing that the invariant looks
at. -/
theorem Program.readGameMessage_readable {h : Program F} {message : List UInt8}
    (hread : Readable F h.messageLabelStates h.game.mainPlayer.inventory.length message)
    (senderID : UInt8) (point : UpdatePoint) :
    ∃ game, h.readGameMessage senderID message point =
        { h with game := game, thread := point, filledBy := h.filled senderID message } ∧
      game.mainPlayer.enemies.length = h.game.mainPlayer.enemies.length ∧
      game.mainPlayer.inventory.length = h.game.mainPlayer.inventory.length := by
  rcases (readGameMessage_returns_iff h.messageLabelStates senderID message h.game).2 hread with
    ⟨after, hafter⟩
  have hlengths := readGameMessage_within changeRelation_lengths h.messageLabelStates senderID
    message h.game
  rw [hafter] at hlengths
  refine ⟨after.game, ?_, hlengths⟩
  unfold Program.readGameMessage
  rw [hafter]

/-- A written message is handled, and the program goes on. -/
theorem Good.read {limit : ℕ} {h : Program F} (hgood : Good limit h)
    (hactive : h.thread.Active) {message : BaseMessage UInt8}
    (hwritten : Written F limit message) (senderID : UInt8) (point : UpdatePoint)
    (hcopied : ∀ snap ∈ point.copied, Written F limit snap.2)
    (hmessages : ∀ msg ∈ point.messages, Written F limit msg)
    (hreturned : point ≠ .thrown) :
    Good limit (h.readGameMessage senderID message.message point) ∧
      (h.readGameMessage senderID message.message point).thread = point := by
  have hread : Readable F h.messageLabelStates h.game.mainPlayer.inventory.length
      message.message :=
    readable_of_written hwritten hgood.label (hgood.items (.inr hactive))
  rcases Program.readGameMessage_readable hread senderID point with
    ⟨game, heq, henemies, hitems⟩
  rw [heq]
  exact ⟨hgood.at henemies hitems rfl (fun _ => .inr hactive) hcopied hmessages hreturned, rfl⟩

/-! ## A step of the update thread -/

omit [Zero F] [Add F] [Sub F] [BEq F] [LT F] [DecidableLT F] [FixedWidth UInt8 F 4] in
/-- The event in front, if the size of the inbox is not 0. -/
theorem frontEventMessage_mem {c : Client} (h : 0 < c.eventMessagesSize) :
    c.frontEventMessage ∈ c.eventMessages := by
  unfold Client.frontEventMessage
  cases hevents : c.eventMessages with
  | nil => simp [Client.eventMessagesSize, hevents] at h
  | cons msg events => exact List.mem_cons_self

omit [Zero F] [Add F] [Sub F] [BEq F] [LT F] [DecidableLT F] [FixedWidth UInt8 F 4] in
theorem mem_snapMessage {c : Client} {snap : UInt8 × BaseMessage UInt8}
    (h : snap ∈ c.snapMessage) : c.snapshotMessages snap.1 = some snap.2 := by
  rcases List.mem_filterMap.1 h with ⟨senderID, -, hsome⟩
  rcases Option.map_eq_some_iff.1 hsome with ⟨msg, hmsg, rfl⟩
  exact hmsg

/-- A step of the update thread keeps the invariant of the program. -/
theorem good_update {limit : ℕ} {c c' : Client} {h h' : Program F} (hgood : Good limit h)
    (hc : InboxMeets (Written F limit) c) (hupdate : h.update c = some (c', h')) :
    Good limit h' := by
  have hactive : ∀ {point : UpdatePoint}, h.thread = point → point.Active → h.thread.Active := by
    rintro point rfl hpoint
    exact hpoint
  have hevent := fun (hthread : h.thread = .events) (hsize : 0 < c.eventMessagesSize) =>
    hgood.read (hactive hthread trivial) (hc.event _ (frontEventMessage_mem hsize)).2
      c.frontEventMessage.senderID .events nofun nofun nofun
  cases Program.update_cases hupdate with
  | ended hthread hrunning => exact hgood.goto nofun nofun nofun nofun
  | turn hthread hprocess => exact hgood.goto (fun _ => .inl hprocess) nofun nofun nofun
  | text hthread | noText hthread =>
      exact hgood.goto (fun _ => .inr (hactive hthread trivial)) nofun nofun nofun
  | event hthread hsize hpos => exact (hevent hthread hsize).1
  | throws hthread hsize hthrown => exact (hevent hthread hsize).1
  | spin hthread hsize hempty => exact hgood
  | copy hthread hsize =>
      refine hgood.goto (fun _ => .inr (hactive hthread trivial)) ?_ nofun nofun
      intro snap hsnap
      exact (hc.snapshot _ _ (mem_snapMessage hsnap)).2.2
  | handle senderID msg copy hthread =>
      have hcopied := hgood.copied
      rw [hthread] at hcopied
      refine (hgood.read (hactive hthread trivial) (hcopied _ List.mem_cons_self) senderID
        (.clear copy) ?_ nofun nofun).1
      exact fun snap hsnap => hcopied snap (List.mem_cons_of_mem _ hsnap)
  | handled hthread => exact hgood.goto (fun _ => .inr (hactive hthread trivial)) nofun nofun nofun
  | clear copy hthread =>
      have hcopied := hgood.copied
      rw [hthread] at hcopied
      exact hgood.goto (fun _ => .inr (hactive hthread trivial)) hcopied nofun nofun
  | player i hi hthread =>
      exact hgood.at rfl rfl rfl (fun _ => .inr (hactive hthread trivial)) nofun nofun nofun
  | write i hthread =>
      refine hgood.at ?_ ?_ rfl (fun _ => .inr (hactive hthread trivial)) nofun ?_ nofun
      · dsimp only
        rw [enemies_write, List.length_map]
      · exact LevelClient.length_inventory_write h.game.process h.ptrs h.game.mainPlayer
      · intro msg hmsg
        have hfew : (reportedChanges h.game.process h.game.mainPlayer.enemies).length ≤ limit := by
          unfold reportedChanges
          rw [List.length_map]
          exact (List.length_filter_le _ _).trans hgood.few
        exact ⟨h.game.process, h.ptrs, h.game.mainPlayer, hfew, msg, hmsg, rfl, rfl⟩
  | written hthread => exact hgood.goto nofun nofun nofun nofun

/-! ## Steps of all parties -/

omit [Add F] in
/-- Another program at one socket. -/
theorem Honest.program {limit : ℕ} {w : World F} {net : Net} {n : ℕ} {h : Program F}
    (hs : Honest limit w) (hcarries : Carries (fun _ => Written F limit) (Written F limit) net)
    (haccepts : ∀ m < net.accepts, m < w.net.accepts ∨ m = n) (hgood : Good limit h) :
    Honest limit ⟨net, Function.update w.program n h⟩ where
  carries := hcarries
  good := by
    intro m hm
    dsimp only
    by_cases hmn : m = n
    · subst hmn
      rwa [Function.update_self]
    · rw [Function.update_of_ne hmn]
      exact hs.good m ((haccepts m hm).resolve_right hmn)

omit [Add F] in
/-- The listeners keep the programs good. -/
theorem good_heard {limit : ℕ} {w : World F} (hs : Honest limit w) (a : HobbitSynchrony.Action)
    {n : ℕ} (hn : n < w.net.accepts) : Good limit (w.heard a n) := by
  rcases World.heard_cases a w n with hsame | ⟨clientIDs, hlist⟩
  · rw [hsame]
    exact hs.good n hn
  · rw [hlist]
    exact (hs.good n hn).onClientListUpdate clientIDs

/-- Only an accept opens a connection. -/
theorem accepts_of_step {s s' : Net} {a : HobbitSynchrony.Action} (h : Step s a s')
    (haccept : ∀ ipAddress sinPort prev, a ≠ .accept ipAddress sinPort prev) :
    s'.accepts = s.accepts := by
  cases h with
  | accept ipAddress sinPort prev hpc hprev => exact absurd rfl (haccept ipAddress sinPort prev)
  | acceptNotify g hpc => exact Net.accepts_notifyClients s
  | broadcast m msg hpc => rw [Net.accepts_modify, Net.accepts_broadcastMessage]
  | exitNotify m hpc => rw [Net.accepts_modify, Net.accepts_notifyClients]
  | _ => rfl

theorem honest_step {limit : ℕ} (hlimit : limit ≤ 255) {w w' : World F} {a : Action F}
    (hs : Honest limit w) (h : Guarded World.step (Manageable limit) w a w') :
    Honest limit w' := by
  rcases h with ⟨hstep, hmanageable⟩
  -- steps of the network carry what was written
  have hcarries : ∀ {b : HobbitSynchrony.Action} {net : Net}, Step w.net b net →
      SendsOnly (fun _ => Written F limit) b →
        Carries (fun _ => Written F limit) (Written F limit) net :=
    fun hb hsend => carries_step (fun _ _ hmsg => hmsg.stamp _) hs.carries hsend hb
  cases World.step_cases hstep with
  | net b net hb hsend haccept =>
      refine ⟨hcarries hb fun n body heq => absurd heq (hsend n body), ?_⟩
      intro n hn
      rw [accepts_of_step hb haccept] at hn
      exact good_heard hs b hn
  | join ipAddress sinPort game guids net hb =>
      refine hs.program (hcarries hb nofun) ?_ (good_new hlimit game guids)
      intro m hm
      exact (hb.open_cases hm).imp_right And.left
  | rejoin ipAddress sinPort prev net hb =>
      have hprev : prev < w.net.accepts := by
        cases hb with
        | accept _ _ _ hpc hprev => exact (hprev prev rfl).1
      -- the program goes on behind the new socket
      have hmoved : Honest limit ⟨w.net, Function.update w.program prev
          { w.program prev with thread := .moved }⟩ :=
        hs.program hs.carries (fun _ hm => .inl hm)
          ((hs.good prev hprev).goto nofun nofun nofun nofun)
      refine hmoved.program (hcarries hb nofun) ?_ (hs.good prev hprev)
      intro m hm
      exact (hb.open_cases hm).imp_right And.left
  | start n hn hthread =>
      refine hs.program hs.carries (fun _ hm => .inl hm) ?_
      refine (hs.good n hn).at rfl rfl rfl ?_ nofun nofun nofun
      exact fun hactive => hactive.elim .inl False.elim
  | play n process hn =>
      have hgood := hs.good n hn
      exact hs.program hs.carries (fun _ hm => .inl hm)
        (hgood.at rfl rfl rfl id hgood.copied hgood.messages hgood.returned)
  | enterNewLevel n hn =>
      exact hs.program hs.carries (fun _ hm => .inl hm) ((hs.good n hn).onEnterNewLevel hmanageable)
  | exitLevel n hn =>
      have hgood := hs.good n hn
      refine hs.program hs.carries (fun _ hm => .inl hm)
        (hgood.at rfl rfl rfl ?_ hgood.copied hgood.messages hgood.returned)
      exact fun hactive => hactive.elim nofun .inr
  | setLabel n label enable hn =>
      exact hs.program hs.carries (fun _ hm => .inl hm) ((hs.good n hn).setLabel hmanageable)
  | send n msg messages net hn hthread hb =>
      have hgood := hs.good n hn
      have hmessages := hgood.messages
      rw [hthread] at hmessages
      have hsend : SendsOnly (fun _ => Written F limit) (.clientSend n (serializeMessage
          { msg with senderID := (w.net.conn n).client.clientID })) := by
        intro m body heq sent hsent
        cases heq
        rw [deserializeMessage_serializeMessage] at hsent
        cases hsent
        exact hmessages msg List.mem_cons_self
      refine hs.program (hcarries hb hsend) ?_ ?_
      · intro m hm
        rw [accepts_of_step hb nofun] at hm
        exact .inl hm
      · refine hgood.goto (fun _ => .inr (by rw [hthread]; trivial)) nofun ?_ nofun
        exact fun m hm => hmessages m (List.mem_cons_of_mem _ hm)
  | pass n msg messages hn hthread hempty =>
      have hgood := hs.good n hn
      have hmessages := hgood.messages
      rw [hthread] at hmessages
      refine hs.program hs.carries (fun _ hm => .inl hm)
        (hgood.goto (fun _ => .inr (by rw [hthread]; trivial)) nofun ?_ nofun)
      exact fun m hm => hmessages m (List.mem_cons_of_mem _ hm)
  | update n c program hn hupdate =>
      have hinbox := hs.carries.inbox n hn
      exact hs.program (hs.carries.withClient (Program.inboxMeets_update hinbox hupdate))
        (fun _ hm => .inl hm) (good_update (hs.good n hn) hinbox hupdate)

/-! ## Whole runs -/

omit [Add F] in
theorem honest_start (limit : ℕ) (program : Program F) : Honest limit (World.start program) where
  carries := carries_start
  good := fun n hn => absurd hn (Nat.not_lt_zero n)

theorem honest_run {limit : ℕ} (hlimit : limit ≤ 255) {program : Program F}
    {as : List (Action F)} {w : World F}
    (h : Run (Guarded World.step (Manageable limit)) (World.start program) as w) :
    Honest limit w :=
  h.invariant (fun _ _ _ hstep hs => honest_step hlimit hs hstep) (honest_start limit program)

/-- No handler of any client throws: with levels of at most 20 enemies, or of at most
255 while the label of their healths stays enabled. -/
theorem never_throws {limit : ℕ} (hlimit : limit ≤ 255) {program : Program F}
    {as : List (Action F)} {w : World F}
    (h : Run (Guarded World.step (Manageable limit)) (World.start program) as w) :
    ∀ n < w.net.accepts, (w.program n).thread ≠ .thrown :=
  fun n hn => ((honest_run hlimit h).good n hn).returned

/-- A client that has not started yet, in a game whose memory is zero. -/
def newcomer : Program UInt32 := Program.new freshGame fun _ => 0

/-- Client `n` connects, starts and enters a level. -/
def enters (n : ℕ) : List (Action UInt32) :=
  [.join localhost 0xF0D2 freshGame fun _ => 0, .net .sendID, .net .acceptNotify, .net .spawn,
    .start n, .enterNewLevel n]

/-- Two clients enter a level; the first one takes a turn, and the second one has
handled the snapshot it has got. -/
def sharedTurn : List (Action UInt32) :=
  enters 0 ++ enters 1 ++ List.replicate 13 (.update 0) ++ [.net (.read 0), .net (.broadcast 0),
    .net (.deliver 1), .net (.deliver 1), .net (.deliver 1)] ++ List.replicate 4 (.update 1)

set_option maxRecDepth 4000 in
theorem isSome_sharedTurn :
    (exec (guardFn World.next (Manageable 20)) (World.start newcomer) sharedTurn).isSome := by
  decide

theorem never_throws_shared : ∃ w : World UInt32,
    Run (Guarded World.step (Manageable 20)) (World.start newcomer) sharedTurn w ∧
      ∀ n < w.net.accepts, (w.program n).thread ≠ .thrown :=
  ⟨_, run_of_isSome isSome_sharedTurn,
    never_throws (by decide) (run_of_isSome isSome_sharedTurn)⟩

/-! ## Two clients that have met -/

/-- Two clients enter a level, and the second one has got the lists of clients. -/
def meet : List (Action UInt32) :=
  enters 0 ++ enters 1 ++ List.replicate 2 (.net (.deliver 1))

set_option maxRecDepth 4000 in
theorem isSome_meet :
    (exec (guardFn World.next (Manageable 20)) (World.start newcomer) meet).isSome := by
  decide

/-- The world when the two clients have met. -/
def afterMeet : World UInt32 :=
  (exec (guardFn World.next (Manageable 20)) (World.start newcomer) meet).get isSome_meet

end Multiplayer

end HobbitSynchrony
