import HobbitSynchrony.NoThrow

/-! # Snapshots are genuine

What a slot shows of a player has been written by a program of that player. A
snapshot gets to a slot by way of the sender's socket, the server, which names the
sender, the receiver's inbox, and the copy that `readMessage` makes of it, while all
parties go on.

* `Genuine`: a client with the ID has written the snapshot;
* `Program.readGameMessage_snap`, `Shown.event`: what becomes of the slots;
* `Authentic`: the invariant, along the way of a snapshot;
* `authentic_step`: a step of any party keeps it;
* `shows_genuine`: what the slots show is genuine.
-/

namespace HobbitSynchrony

open Transition HobbitProcessAnalyzer

namespace Multiplayer

variable {F : Type}

/-! ## Genuine snapshots -/

/-- A client that the server knows by this ID has written the snapshot. -/
def Genuine (w : World F) (senderID : UInt8) (snap : Snapshot F) : Prop :=
  ∃ n < w.net.accepts, (w.net.conn n).clientHandler.clientID = senderID ∧
    snap ∈ (w.program n).snapshots

/-- Clients keep their IDs, and what they have written is not forgotten. -/
structure Grows (w w' : World F) : Prop where
  accepts : w.net.accepts ≤ w'.net.accepts
  clientHandler : ∀ n < w.net.accepts,
    (w'.net.conn n).clientHandler = (w.net.conn n).clientHandler
  snapshots : ∀ n < w.net.accepts, (w.program n).snapshots ⊆ (w'.program n).snapshots

variable {w w' : World F}

theorem Genuine.mono (hgrows : Grows w w') {senderID : UInt8} {snap : Snapshot F}
    (h : Genuine w senderID snap) : Genuine w' senderID snap := by
  rcases h with ⟨n, hn, hid, hsnap⟩
  refine ⟨n, hn.trans_le hgrows.accepts, ?_, hgrows.snapshots n hn hsnap⟩
  rw [hgrows.clientHandler n hn]
  exact hid

/-- Handlers that leave the slots alone. -/
theorem handlerRelation_slots : HandlerRelation fun g g' : GameState UInt8 F =>
    g'.connectedPlayers = g.connectedPlayers where
  refl := fun _ => rfl
  trans := fun h h' => h'.trans h

variable [FixedWidth UInt8 F 4]

/-- If the message is a snapshot, its sender has written it. -/
def FromClient (w : World F) (msg : BaseMessage UInt8) : Prop :=
  msg.messageType = snapshotMessage → ∃ snap, Genuine w msg.senderID snap ∧
    msg.message = (MainPlayer.writeSnap snap : BaseMessage UInt8).message

/-- If the message is a snapshot, the program has written it. -/
def FromProgram (h : Program F) (msg : BaseMessage UInt8) : Prop :=
  msg.messageType = snapshotMessage → ∃ snap ∈ h.snapshots,
    msg.message = (MainPlayer.writeSnap snap : BaseMessage UInt8).message

/-- What a program has copied and what its slots show is genuine, and its own
snapshots are among the ones it has written. -/
structure Shown (w : World F) (h : Program F) : Prop where
  copied : ∀ pair ∈ h.thread.copied, ∃ snap, Genuine w pair.1 snap ∧
    pair.2.message = (MainPlayer.writeSnap snap : BaseMessage UInt8).message
  messages : ∀ msg ∈ h.thread.messages, FromProgram h msg
  filled : ∀ i id, h.filledBy i = some id → Genuine w id (h.game.connectedPlayers i).snapshot

theorem FromClient.mono (hgrows : Grows w w') {msg : BaseMessage UInt8} (h : FromClient w msg) :
    FromClient w' msg := by
  intro htype
  rcases h htype with ⟨snap, hgenuine, hmessage⟩
  exact ⟨snap, hgenuine.mono hgrows, hmessage⟩

theorem FromProgram.mono {h h' : Program F} (hsnapshots : h.snapshots ⊆ h'.snapshots)
    {msg : BaseMessage UInt8} (hmsg : FromProgram h msg) : FromProgram h' msg := by
  intro htype
  rcases hmsg htype with ⟨snap, hsnap, hmessage⟩
  exact ⟨snap, hsnapshots hsnap, hmessage⟩

theorem Shown.mono (hgrows : Grows w w') {h : Program F} (hs : Shown w h) : Shown w' h where
  copied := by
    intro pair hpair
    rcases hs.copied pair hpair with ⟨snap, hgenuine, hmessage⟩
    exact ⟨snap, hgenuine.mono hgrows, hmessage⟩
  messages := hs.messages
  filled := fun i id hfilled => (hs.filled i id hfilled).mono hgrows

/-- Another point of the thread, with the slots as they are. -/
theorem Shown.at {h h' : Program F} (hs : Shown w h)
    (hslots : ∀ i, (h'.game.connectedPlayers i).snapshot = (h.game.connectedPlayers i).snapshot)
    (hfilled : h'.filledBy = h.filledBy)
    (hcopied : ∀ pair ∈ h'.thread.copied, ∃ snap, Genuine w pair.1 snap ∧
      pair.2.message = (MainPlayer.writeSnap snap : BaseMessage UInt8).message)
    (hmessages : ∀ msg ∈ h'.thread.messages, FromProgram h' msg) : Shown w h' where
  copied := hcopied
  messages := hmessages
  filled := by
    intro i id hid
    rw [hslots i]
    exact hs.filled i id (hfilled ▸ hid)

/-- Nothing but the thread goes on. -/
theorem Shown.goto {h : Program F} (hs : Shown w h) {point : UpdatePoint}
    (hcopied : ∀ pair ∈ point.copied, ∃ snap, Genuine w pair.1 snap ∧
      pair.2.message = (MainPlayer.writeSnap snap : BaseMessage UInt8).message)
    (hmessages : ∀ msg ∈ point.messages, FromProgram h msg) :
    Shown w { h with thread := point } :=
  hs.at (fun _ => rfl) rfl hcopied hmessages

/-! ## What a message does to the slots -/

theorem putsSnapshot_single {states : LabelStates} {items : ℕ} {label : DataLabel}
    {message : List UInt8} (h : SingleBlock F states items label message) :
    Program.PutsSnapshot states message =
      (decide (label = .connectedPlayerSnap) && states.processLabel .connectedPlayerSnap) := by
  rcases h with ⟨hlabel, size, rest, rfl, -, -⟩
  have hhead : DataLabel.ofByte (ByteLike.ofByte label.toByte : UInt8) = label := hlabel
  unfold Program.PutsSnapshot
  rw [List.head?_cons, Option.map_some, hhead]
  simp

variable [Zero F] [Add F] [LT F] [DecidableLT F]

/-- The game, the slots and their history, whether or not the handler throws. -/
theorem Program.game_readGameMessage (h : Program F) (senderID : UInt8) (message : List UInt8)
    (point : UpdatePoint) : (h.readGameMessage senderID message point).game =
      gameAfter (HobbitSynchrony.readGameMessage h.messageLabelStates senderID
        ⟨message, h.game⟩) := by
  unfold Program.readGameMessage
  split
  next hrun =>
    rw [hrun]
    rfl
  next hrun =>
    rw [hrun]
    rfl

theorem Program.snapshots_readGameMessage (h : Program F) (senderID : UInt8)
    (message : List UInt8) (point : UpdatePoint) :
    (h.readGameMessage senderID message point).snapshots = h.snapshots := by
  unfold Program.readGameMessage
  split
  next => rfl
  next => rfl

theorem Program.labels_readGameMessage (h : Program F) (senderID : UInt8) (message : List UInt8)
    (point : UpdatePoint) :
    (h.readGameMessage senderID message point).messageLabelStates = h.messageLabelStates := by
  unfold Program.readGameMessage
  split
  next => rfl
  next => rfl

theorem Program.npcs_readGameMessage (h : Program F) (senderID : UInt8) (message : List UInt8)
    (point : UpdatePoint) : (h.readGameMessage senderID message point).npcs = h.npcs := by
  unfold Program.readGameMessage
  split
  next => rfl
  next => rfl

theorem Program.filledBy_readGameMessage {h : Program F} {message : List UInt8}
    (hputs : Program.PutsSnapshot h.messageLabelStates message = false) (senderID : UInt8)
    (point : UpdatePoint) : (h.readGameMessage senderID message point).filledBy = h.filledBy := by
  unfold Program.readGameMessage
  split
  next =>
    unfold Program.filled
    rw [hputs]
    rfl
  next => rfl

/-- A single block of enemies or items leaves the slots alone. -/
theorem Program.slots_readGameMessage {h : Program F} {label : DataLabel} {message : List UInt8}
    (hsingle : SingleBlock F h.messageLabelStates h.game.mainPlayer.inventory.length label message)
    (hlabel : label = .enemiesHealth ∨ label = .inventory) (senderID : UInt8)
    (point : UpdatePoint) :
    (h.readGameMessage senderID message point).game.connectedPlayers =
      h.game.connectedPlayers := by
  rw [Program.game_readGameMessage]
  rcases hsingle.gameAfter senderID with hsame | ⟨rest, hgame⟩
  · rw [hsame]
  · rw [hgame]
    rcases hlabel with rfl | rfl
    · exact within_readProcessEnemiesHealth handlerRelation_slots (fun _ _ _ _ _ => rfl)
        ⟨rest, h.game⟩
    · exact within_readProcessInventory handlerRelation_slots (fun _ _ _ _ _ => rfl)
        ⟨rest, h.game⟩

/-- A snapshot goes into the slot of its sender, if its label is enabled. -/
theorem Program.readGameMessage_snap (h : Program F) (senderID : UInt8) (snap : Snapshot F)
    (point : UpdatePoint) :
    h.readGameMessage senderID (MainPlayer.writeSnap snap : BaseMessage UInt8).message point =
      if h.messageLabelStates.processLabel .connectedPlayerSnap then
        { h with
          game := h.game.putSnapshot (slotOf h.game senderID) snap
          thread := point
          filledBy := Function.update h.filledBy (slotOf h.game senderID) (some senderID) }
      else { h with thread := point } := by
  have hputs : Program.PutsSnapshot h.messageLabelStates
      (MainPlayer.writeSnap snap : BaseMessage UInt8).message =
        h.messageLabelStates.processLabel .connectedPlayerSnap := by
    have hsingle : SingleBlock F h.messageLabelStates 0 .connectedPlayerSnap
        (MainPlayer.writeSnap snap : BaseMessage UInt8).message := singleBlock_writeSnap snap
    rw [putsSnapshot_single hsingle]
    simp
  unfold Program.readGameMessage
  cases hstate : h.messageLabelStates.processLabel .connectedPlayerSnap with
  | true =>
      rw [readGameMessage_writeSnap hstate]
      unfold Program.filled
      rw [hputs, hstate]
      rfl
  | false =>
      rw [readGameMessage_sized (MainPlayer.sized_writeSnap snap) (by decide) rfl hstate]
      unfold Program.filled
      rw [hputs, hstate]
      rfl

/-- The slot of the sender shows the new snapshot, the others what they showed. -/
theorem Shown.fill {h : Program F} (hs : Shown w h) {senderID : UInt8} {snap : Snapshot F}
    (hgenuine : Genuine w senderID snap) {point : UpdatePoint}
    (hcopied : ∀ pair ∈ point.copied, ∃ snap, Genuine w pair.1 snap ∧
      pair.2.message = (MainPlayer.writeSnap snap : BaseMessage UInt8).message)
    (hmessages : ∀ msg ∈ point.messages, FromProgram h msg) :
    Shown w (h.readGameMessage senderID
      (MainPlayer.writeSnap snap : BaseMessage UInt8).message point) := by
  rw [Program.readGameMessage_snap]
  split
  next =>
    refine ⟨hcopied, hmessages, ?_⟩
    intro i id hid
    dsimp only at hid ⊢
    by_cases hi : i = slotOf h.game senderID
    · subst hi
      rw [Function.update_self] at hid
      obtain rfl := Option.some.inj hid
      simpa [GameState.putSnapshot, ConnectedPlayer.snapshot, ConnectedPlayer.withSnapshot]
        using hgenuine
    · rw [Function.update_of_ne hi] at hid
      simpa [GameState.putSnapshot, hi] using hs.filled i id hid
  next => exact hs.goto hcopied hmessages

theorem thread_readGameMessage (h : Program F) (senderID : UInt8) (message : List UInt8)
    (point : UpdatePoint) : (h.readGameMessage senderID message point).thread = point ∨
      (h.readGameMessage senderID message point).thread = .thrown := by
  unfold Program.readGameMessage
  split
  next => exact .inl rfl
  next => exact .inr rfl

variable [Sub F] [BEq F]

omit [Add F] in
/-- A written event is a single block of enemies or items. -/
theorem Good.single_event {limit : ℕ} {h : Program F} (hgood : Good limit h)
    (hactive : h.thread.Active) {msg : BaseMessage UInt8} (hwritten : Written F limit msg)
    (htype : msg.messageType = eventMessage) :
    ∃ label, (label = .enemiesHealth ∨ label = .inventory) ∧
      SingleBlock F h.messageLabelStates h.game.mainPlayer.inventory.length label msg.message := by
  rcases written_cases hwritten hgood.label (hgood.items (.inr hactive)) with
    ⟨hsnap, -⟩ | ⟨-, hblock | hblock⟩
  · rw [htype] at hsnap
    cases hsnap
  · exact ⟨_, .inl rfl, hblock⟩
  · exact ⟨_, .inr rfl, hblock⟩

/-- An event leaves the slots alone. -/
theorem Shown.event {limit : ℕ} {h : Program F} (hs : Shown w h) (hgood : Good limit h)
    (hactive : h.thread.Active) {msg : BaseMessage UInt8} (hwritten : Written F limit msg)
    (htype : msg.messageType = eventMessage) (senderID : UInt8) :
    Shown w (h.readGameMessage senderID msg.message .events) := by
  rcases hgood.single_event hactive hwritten htype with ⟨label, hlabel, hblock⟩
  have hputs : Program.PutsSnapshot h.messageLabelStates msg.message = false := by
    rw [putsSnapshot_single hblock]
    rcases hlabel with rfl | rfl
    · rfl
    · rfl
  have hslots := Program.slots_readGameMessage hblock hlabel senderID .events
  have hfilled := Program.filledBy_readGameMessage hputs senderID .events
  refine hs.at (fun i => by rw [hslots]) hfilled ?_ ?_
  · rcases thread_readGameMessage h senderID msg.message .events with hthread | hthread
    · rw [hthread]
      nofun
    · rw [hthread]
      nofun
  · rcases thread_readGameMessage h senderID msg.message .events with hthread | hthread
    · rw [hthread]
      nofun
    · rw [hthread]
      nofun

/-! ## A step of the update thread -/

theorem shown_update {limit : ℕ} {c c' : Client} {h h' : Program F} (hgood : Good limit h)
    (hwritten : InboxMeets (Written F limit) c) (hclient : InboxMeets (FromClient w) c)
    (hs : Shown w h) (hupdate : h.update c = some (c', h')) : Shown w h' := by
  cases Program.update_cases hupdate with
  | ended hthread hrunning => exact hs.goto nofun nofun
  | turn hthread hprocess => exact hs.goto nofun nofun
  | text hthread | noText hthread => exact hs.goto nofun nofun
  | event hthread hsize hpos | throws hthread hsize hthrown =>
      have hfront := hwritten.event _ (frontEventMessage_mem hsize)
      exact hs.event hgood (by rw [hthread]; trivial) hfront.2 hfront.1 _
  | spin hthread hsize hempty => exact hs
  | copy hthread hsize =>
      refine hs.goto ?_ nofun
      intro pair hpair
      rcases hclient.snapshot _ _ (mem_snapMessage hpair) with ⟨htype, hid, hfrom⟩
      rw [← hid]
      exact hfrom htype
  | handle senderID msg copy hthread =>
      have hcopied := hs.copied
      rw [hthread] at hcopied
      rcases hcopied _ List.mem_cons_self with ⟨snap, hgenuine, hmessage⟩
      dsimp only at hgenuine hmessage
      rw [hmessage]
      exact hs.fill hgenuine (fun pair hpair => hcopied pair (List.mem_cons_of_mem _ hpair)) nofun
  | handled hthread => exact hs.goto nofun nofun
  | clear copy hthread =>
      have hcopied := hs.copied
      rw [hthread] at hcopied
      exact hs.goto hcopied nofun
  | player i hi hthread => exact hs.at (fun _ => rfl) rfl nofun nofun
  | write i hthread =>
      refine hs.at (fun _ => rfl) rfl nofun ?_
      intro msg hmsg htype
      rcases MainPlayer.mem_write hmsg with rfl | ⟨rfl, hpos⟩ | ⟨player', rfl, hpos⟩
      · exact ⟨_, List.mem_append_right _ List.mem_cons_self, rfl⟩
      · rw [messageType_writeEnemiesEvent _ _ hpos] at htype
        cases htype
      · rw [messageType_writeInventoryEvent _ _ hpos] at htype
        cases htype
  | written hthread => exact hs.goto nofun nofun

theorem snapshots_update {c c' : Client} {h h' : Program F}
    (hupdate : h.update c = some (c', h')) : h.snapshots ⊆ h'.snapshots := by
  cases Program.update_cases hupdate with
  | event | throws | handle => rw [Program.snapshots_readGameMessage]; exact List.Subset.refl _
  | write => exact List.subset_append_left _ _
  | _ => exact List.Subset.refl _

/-! ## Steps of all parties -/

/-- What the programs send is theirs, what is relayed is its sender's, and the slots show
what is genuine. -/
structure Authentic (limit : ℕ) (w : World F) : Prop where
  honest : Honest limit w
  carries : Carries (fun n msg => n < w.net.accepts ∧ FromProgram (w.program n) msg) (FromClient w)
    w.net
  shown : ∀ n < w.net.accepts, Shown w (w.program n)

omit [Add F] in
/-- After a step, what was genuine before is genuine. -/
theorem Authentic.next {limit : ℕ} (hgrows : Grows w w') (honest : Honest limit w')
    (hcarries : Carries (fun n msg => n < w.net.accepts ∧ FromProgram (w.program n) msg)
      (FromClient w) w'.net)
    (hshown : ∀ n < w'.net.accepts, Shown w (w'.program n)) : Authentic limit w' where
  honest := honest
  carries := hcarries.mono
    (fun n _ h => ⟨h.1.trans_le hgrows.accepts, h.2.mono (hgrows.snapshots n h.1)⟩)
    (fun _ h => h.mono hgrows)
  shown := fun n hn => (hshown n hn).mono hgrows

omit [FixedWidth UInt8 F 4] [Zero F] [Add F] [Sub F] [BEq F] [LT F] [DecidableLT F] in
/-- A step of the network and of the programs. -/
theorem grows_step {a : HobbitSynchrony.Action} {net : Net} (h : Step w.net a net)
    {program : ℕ → Program F}
    (hsnapshots : ∀ n < w.net.accepts, (w.program n).snapshots ⊆ (program n).snapshots) :
    Grows w ⟨net, program⟩ where
  accepts := h.accepts_le
  clientHandler := fun _ hn => h.clientHandler hn
  snapshots := hsnapshots

omit [FixedWidth UInt8 F 4] [Zero F] [Add F] [Sub F] [BEq F] [LT F] [DecidableLT F] in
/-- Another program at one socket. -/
theorem snapshots_program {n : ℕ} {h : Program F}
    (hsnapshots : n < w.net.accepts → (w.program n).snapshots ⊆ h.snapshots) :
    ∀ m < w.net.accepts,
      (w.program m).snapshots ⊆ (Function.update w.program n h m).snapshots := by
  intro m hm
  by_cases hmn : m = n
  · subst hmn
    rw [Function.update_self]
    exact hsnapshots hm
  · rw [Function.update_of_ne hmn]
    exact List.Subset.refl _

omit [Zero F] [Add F] [Sub F] [BEq F] [LT F] [DecidableLT F] in
theorem shown_program {accepts n : ℕ} {program : ℕ → Program F} {h : Program F}
    (hs : ∀ m < w.net.accepts, Shown w (program m)) (hn : Shown w h)
    (haccepts : ∀ m < accepts, m < w.net.accepts ∨ m = n) :
    ∀ m < accepts, Shown w (Function.update program n h m) := by
  intro m hm
  by_cases hmn : m = n
  · subst hmn
    rwa [Function.update_self]
  · rw [Function.update_of_ne hmn]
    exact hs m ((haccepts m hm).resolve_right hmn)

omit [Add F] in
/-- The program of one client goes on, and keeps what it has written. -/
theorem Authentic.program {limit : ℕ} (hs : Authentic limit w) {net : Net} {n : ℕ}
    {h : Program F} (haccepts : net.accepts = w.net.accepts)
    (hhandler : ∀ m < w.net.accepts, (net.conn m).clientHandler = (w.net.conn m).clientHandler)
    (hcarries : Carries (fun n msg => n < w.net.accepts ∧ FromProgram (w.program n) msg)
      (FromClient w) net)
    (hshown : Shown w h) (hsnapshots : (w.program n).snapshots ⊆ h.snapshots)
    (honest : Honest limit ⟨net, Function.update w.program n h⟩) :
    Authentic limit ⟨net, Function.update w.program n h⟩ := by
  have hgrows : Grows w ⟨net, Function.update w.program n h⟩ :=
    ⟨haccepts.ge, hhandler, snapshots_program fun _ => hsnapshots⟩
  refine Authentic.next hgrows honest hcarries (shown_program hs.shown hshown fun m hm => ?_)
  exact .inl (haccepts ▸ hm)

theorem authentic_step {limit : ℕ} (hlimit : limit ≤ 255) {a : Action F}
    (hs : Authentic limit w) (h : Guarded World.step (Manageable limit) w a w') :
    Authentic limit w' := by
  have honest := honest_step hlimit hs.honest h
  -- the server names the program that has written the message
  have hcarries : ∀ {b : HobbitSynchrony.Action} {net : Net}, Step w.net b net →
      SendsOnly (fun n msg => n < w.net.accepts ∧ FromProgram (w.program n) msg) b →
        Carries (fun n msg => n < w.net.accepts ∧ FromProgram (w.program n) msg) (FromClient w)
          net := by
    intro b net hb hsend
    refine carries_step ?_ hs.carries hsend hb
    rintro n msg ⟨hn, hfrom⟩ htype
    rcases hfrom htype with ⟨snap, hsnap, hmessage⟩
    exact ⟨snap, ⟨n, hn, rfl, hsnap⟩, hmessage⟩
  cases World.step_cases h.1 with
  | net b net hb hsend haccept =>
      have hheard : ∀ n, (w.heard b n).snapshots = (w.program n).snapshots := by
        intro n
        rcases World.heard_cases b w n with hsame | ⟨clientIDs, hlist⟩
        · rw [hsame]
        · rw [hlist]
          rfl
      have hgrows : Grows w ⟨net, w.heard b⟩ := grows_step hb fun n _ => by
        rw [hheard n]
        exact List.Subset.refl _
      refine Authentic.next hgrows honest
        (hcarries hb fun n body heq => absurd heq (hsend n body)) ?_
      intro n hn
      rw [accepts_of_step hb haccept] at hn
      have hshown := hs.shown n hn
      rcases World.heard_cases b w n with hsame | ⟨clientIDs, hlist⟩
      · dsimp only
        rwa [hsame]
      · dsimp only
        rw [hlist]
        exact hshown.at (fun _ => rfl) rfl hshown.copied hshown.messages
  | join ipAddress sinPort game guids net hb =>
      refine Authentic.next (grows_step hb (snapshots_program fun hn => absurd hn
        (Nat.lt_irrefl _))) honest (hcarries hb nofun) ?_
      refine shown_program hs.shown ⟨nofun, nofun, nofun⟩ fun m hm => ?_
      exact (hb.open_cases hm).imp_right And.left
  | rejoin ipAddress sinPort prev net hb =>
      have hprev : prev < w.net.accepts := by
        cases hb with
        | accept _ _ _ hpc hprev => exact (hprev prev rfl).1
      -- the program goes on behind the new socket, with all it knows
      have hshown := hs.shown prev hprev
      have hmoved : Shown w { w.program prev with thread := .moved } := hshown.goto nofun nofun
      have hprograms : ∀ m < w.net.accepts, Shown w (Function.update w.program prev
          { w.program prev with thread := .moved } m) :=
        shown_program hs.shown hmoved fun _ hm => .inl hm
      refine Authentic.next (grows_step hb ?_) honest (hcarries hb nofun) ?_
      · intro n hn
        rw [Function.update_of_ne (Nat.ne_of_lt hn)]
        have hkept : (w.program prev).snapshots ⊆
            ({ w.program prev with thread := .moved } : Program F).snapshots :=
          List.Subset.refl _
        exact snapshots_program (fun _ => hkept) n hn
      · refine shown_program hprograms hshown fun m hm => ?_
        exact (hb.open_cases hm).imp_right And.left
  | start n hn hthread =>
      exact hs.program rfl (fun _ _ => rfl) hs.carries
        ((hs.shown n hn).at (fun _ => rfl) rfl nofun nofun) (List.Subset.refl _) honest
  | play n process hn =>
      have hshown := hs.shown n hn
      exact hs.program rfl (fun _ _ => rfl) hs.carries
        (hshown.at (fun _ => rfl) rfl hshown.copied hshown.messages) (List.Subset.refl _) honest
  | enterNewLevel n hn =>
      have hshown := hs.shown n hn
      exact hs.program rfl (fun _ _ => rfl) hs.carries
        (hshown.at (fun _ => rfl) rfl hshown.copied hshown.messages) (List.Subset.refl _) honest
  | exitLevel n hn =>
      have hshown := hs.shown n hn
      exact hs.program rfl (fun _ _ => rfl) hs.carries
        (hshown.at (fun _ => rfl) rfl hshown.copied hshown.messages) (List.Subset.refl _) honest
  | setLabel n label enable hn =>
      have hshown := hs.shown n hn
      exact hs.program rfl (fun _ _ => rfl) hs.carries
        (hshown.at (fun _ => rfl) rfl hshown.copied hshown.messages) (List.Subset.refl _) honest
  | send n msg messages net hn hthread hb =>
      have hmessages := (hs.shown n hn).messages
      rw [hthread] at hmessages
      have hsend : SendsOnly (fun n msg => n < w.net.accepts ∧ FromProgram (w.program n) msg)
          (.clientSend n (serializeMessage
            { msg with senderID := (w.net.conn n).client.clientID })) := by
        intro m body heq sent hsent
        cases heq
        rw [deserializeMessage_serializeMessage] at hsent
        cases hsent
        exact ⟨hn, hmessages msg List.mem_cons_self⟩
      exact hs.program (accepts_of_step hb nofun) (fun _ hm => hb.clientHandler hm)
        (hcarries hb hsend) ((hs.shown n hn).goto nofun
          fun m hm => hmessages m (List.mem_cons_of_mem _ hm)) (List.Subset.refl _) honest
  | pass n msg messages hn hthread hempty =>
      have hmessages := (hs.shown n hn).messages
      rw [hthread] at hmessages
      exact hs.program rfl (fun _ _ => rfl) hs.carries ((hs.shown n hn).goto nofun
        fun m hm => hmessages m (List.mem_cons_of_mem _ hm)) (List.Subset.refl _) honest
  | update n c program hn hupdate =>
      have hclient := hs.carries.inbox n hn
      have hshown := shown_update (hs.honest.good n hn) (hs.honest.carries.inbox n hn) hclient
        (hs.shown n hn) hupdate
      exact hs.program rfl (fun m _ => w.net.clientHandler_modify rfl m)
        (hs.carries.withClient (Program.inboxMeets_update hclient hupdate)) hshown
        (snapshots_update hupdate) honest

/-! ## Whole runs -/

omit [Add F] in
theorem authentic_start (limit : ℕ) (program : Program F) :
    Authentic limit (World.start program) where
  honest := honest_start limit program
  carries := carries_start
  shown := fun n hn => absurd hn (Nat.not_lt_zero n)

/-- What a slot shows has been written by a client with the ID that the slot was
filled for, whatever is on its way, and whoever has left or joined again. -/
theorem shows_genuine {limit : ℕ} (hlimit : limit ≤ 255) {program : Program F}
    {as : List (Action F)} {w : World F}
    (hrun : Run (Guarded World.step (Manageable limit)) (World.start program) as w) :
    ∀ n < w.net.accepts, ∀ i senderID, (w.program n).filledBy i = some senderID →
      ∃ m < w.net.accepts, (w.net.conn m).clientHandler.clientID = senderID ∧
        ((w.program n).game.connectedPlayers i).snapshot ∈ (w.program m).snapshots := by
  have hs : Authentic limit w := hrun.invariant
    (fun _ _ _ hstep hs => authentic_step hlimit hs hstep) (authentic_start limit program)
  intro n hn i senderID hfilled
  exact (hs.shown n hn).filled i senderID hfilled

theorem shows_genuine_shared : ∃ w : World UInt32,
    Run (Guarded World.step (Manageable 20)) (World.start newcomer) sharedTurn w ∧
      ∀ n < w.net.accepts, ∀ i senderID, (w.program n).filledBy i = some senderID →
        ∃ m < w.net.accepts, (w.net.conn m).clientHandler.clientID = senderID ∧
          ((w.program n).game.connectedPlayers i).snapshot ∈ (w.program m).snapshots :=
  ⟨_, run_of_isSome isSome_sharedTurn,
    shows_genuine (by decide) (run_of_isSome isSome_sharedTurn)⟩

end Multiplayer

end HobbitSynchrony
