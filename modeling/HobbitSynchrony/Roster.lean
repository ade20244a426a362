import HobbitSynchrony.ClientIDs
import HobbitSynchrony.ControlFrames

/-! # Rosters at rest

The list of handlers and the messages about it change in different critical
sections, so a client can hold an old roster. It then always has the current
one on its way, or somebody still has to call `notifyClients`.

* `settled`: a client once the frames on their way have arrived;
* `NotifyPending`: a change of the list that has not been announced;
* `Current`: the invariant, for one registered client;
* `current_step`: every step keeps it, as long as IDs are distinct and no
  control message is relayed;
* `rosters_agree`: what it says of a state at rest.
-/

namespace HobbitSynchrony

open Transition

/-- The client after the frames on their way. -/
def Connection.settled (c : Connection) : Client :=
  c.client.receiveAll (c.inFlight.map Frame.body)

/-- The new client has not been sent its ID yet. -/
def Net.Unidentified (s : Net) (n : ℕ) : Prop := ∃ h, s.acceptor = .sendID h ∧ h.socket = n

/-- An accept or a removal still has its `notifyClients` to come. -/
def Net.NotifyPending (s : Net) : Prop :=
  (∃ h, s.acceptor = .sendID h ∨ s.acceptor = .notify h) ∨ ∃ n, (s.conn n).handler = .notifying

/-- A body that carries an event or a snapshot. -/
def GameFrame (body : List UInt8) : Prop :=
  ∃ msg, deserializeMessage body = some msg ∧
    (msg.messageType = eventMessage ∨ msg.messageType = snapshotMessage)

/-- What the server's state means for the client of a registered handler. -/
structure Current (s : Net) (h : ClientHandler) : Prop where
  roster : s.NotifyPending ∨ (s.conn h.socket).settled.connectedClientsInfo = rosterOf s.clients
  identity : s.Unidentified h.socket ∨ (s.conn h.socket).settled.clientID = h.clientID

/-- Every registered client that is connected is current. -/
def AllCurrent (s : Net) : Prop :=
  ∀ h ∈ s.clients, (s.conn h.socket).client.isConnected → Current s h

/-! ## Frames that arrive later -/

theorem settled_put (c : Connection) (frames : List Frame) :
    (c.put frames).settled = c.settled.receiveAll (frames.map Frame.body) := by
  simp [Connection.settled, Connection.put]

theorem settled_receive (c : Connection) (frame : Frame) (rest : List Frame)
    (h : c.inFlight = frame :: rest) : (c.receive frame rest).settled = c.settled := by
  simp [Connection.settled, Connection.receive, h]

/-- Copies of a message that is no control message change neither. -/
theorem settled_relay (c : Connection) (k : ℕ) (msg : BaseMessage UInt8)
    (present : List ClientHandler) (hctl : 0 < k → ¬ IsControl msg) :
    (c.put (List.replicate k (relayFrame msg present))).settled.connectedClientsInfo =
        c.settled.connectedClientsInfo ∧
      (c.put (List.replicate k (relayFrame msg present))).settled.clientID =
        c.settled.clientID := by
  have hall : ∀ buffer ∈ (List.replicate k (relayFrame msg present)).map Frame.body,
      serializeMessage msg = buffer ∧ ¬ IsControl msg := by
    intro buffer hbuffer
    rcases List.mem_map.1 hbuffer with ⟨f, hf, rfl⟩
    rcases List.mem_replicate.1 hf with ⟨hk, rfl⟩
    exact ⟨rfl, hctl (Nat.pos_of_ne_zero hk)⟩
  rw [settled_put]
  constructor
  · apply Client.connectedClientsInfo_receiveAll
    intro buffer hbuffer
    exact ⟨msg, (hall buffer hbuffer).1, fun h => (hall buffer hbuffer).2 (.inl h)⟩
  · apply Client.clientID_receiveAll
    intro buffer hbuffer
    exact ⟨msg, (hall buffer hbuffer).1, fun h => (hall buffer hbuffer).2 (.inr h)⟩

/-- After one or more copies of the roster of `clients` it is the client's. -/
theorem settled_roster (c : Connection) (k : ℕ) (hk : 0 < k) (clients : List ClientHandler)
    (hdistinct : (clients.map ClientHandler.clientID).Nodup) :
    (c.put (List.replicate k (rosterFrame clients))).settled.connectedClientsInfo =
        rosterOf clients ∧
      (c.put (List.replicate k (rosterFrame clients))).settled.clientID = c.settled.clientID := by
  rw [settled_put]
  constructor
  · -- the last copy decides
    obtain ⟨k, rfl⟩ : ∃ j, k = j + 1 := ⟨k - 1, by omega⟩
    rw [List.replicate_succ', List.map_append, Client.receiveAll_append, List.map_singleton,
      Client.receiveAll_cons, Client.receiveAll_nil]
    have hlast := Client.connectedClientsInfo_receiveBody (rosterMessage clients)
      (Client.receiveAll ((List.replicate k (rosterFrame clients)).map Frame.body) c.settled)
    rw [if_pos (show (rosterMessage clients).messageType = clientListMessage from rfl)] at hlast
    exact hlast.trans (rosterOfData_clientListData clients hdistinct)
  · apply Client.clientID_receiveAll
    intro buffer hbuffer
    rcases List.mem_map.1 hbuffer with ⟨f, hf, rfl⟩
    obtain rfl := List.eq_of_mem_replicate hf
    exact ⟨rosterMessage clients, rfl, show clientListMessage ≠ clientIDMessage by decide⟩

/-! ## Steps -/

/-- What the currency of the clients depends on. -/
theorem AllCurrent.congr {s s' : Net} (hs : AllCurrent s) (hclients : s'.clients = s.clients)
    (hpending : s.NotifyPending → s'.NotifyPending)
    (hacceptor : ∀ g, s.acceptor = .sendID g → s'.acceptor = .sendID g)
    (hconn : ∀ n, (s'.conn n).client.isConnected → (s.conn n).client.isConnected ∧
      (s'.conn n).settled.connectedClientsInfo = (s.conn n).settled.connectedClientsInfo ∧
      (s'.conn n).settled.clientID = (s.conn n).settled.clientID) : AllCurrent s' := by
  intro h hh hcon
  rw [hclients] at hh
  rcases hconn h.socket hcon with ⟨hcon', hroster, hidentity⟩
  have hcur := hs h hh hcon'
  constructor
  · rw [hroster, hclients]
    exact hcur.roster.imp_left hpending
  · rw [hidentity]
    refine hcur.identity.imp_left ?_
    rintro ⟨g, hg, hgn⟩
    exact ⟨g, hacceptor g hg, hgn⟩

/-- A change of connection `m` that leaves its client's prospects alone, or
disconnects it, and is not the end of a `notifyClients` in waiting. -/
theorem AllCurrent.modify {s : Net} (hs : AllCurrent s) {m : ℕ} {f : Connection → Connection}
    (hnotify : (s.conn m).handler = .notifying → (f (s.conn m)).handler = .notifying)
    (hconn : (f (s.conn m)).client.isConnected → (s.conn m).client.isConnected ∧
      (f (s.conn m)).settled = (s.conn m).settled) : AllCurrent (s.modify m f) := by
  refine hs.congr rfl ?_ (fun _ h => h) ?_
  · rintro (hacc | ⟨n, hn⟩)
    · exact .inl hacc
    · refine .inr ⟨n, ?_⟩
      -- a thread that has to notify still has to
      by_cases hnm : n = m
      · subst hnm
        simpa using hnotify hn
      · simpa [hnm] using hn
  · intro n hcon
    by_cases hnm : n = m
    · subst hnm
      rw [Net.conn_modify, Function.update_self] at hcon ⊢
      rcases hconn hcon with ⟨hcon', hsettled⟩
      exact ⟨hcon', by rw [hsettled], by rw [hsettled]⟩
    · rw [Net.conn_modify, Function.update_of_ne hnm] at hcon ⊢
      exact ⟨hcon, rfl, rfl⟩

/-- Every registered handler gets at least one copy of what its list is sent. -/
theorem countP_socket_pos {clients : List ClientHandler} {h : ClientHandler} (hh : h ∈ clients) :
    0 < clients.countP fun g => g.socket == h.socket :=
  List.countP_pos_iff.2 ⟨h, hh, by simp⟩

/-- After a call of `notifyClients` everybody is going to have the roster. -/
theorem current_notifyClients {s s' : Net} (hs : AllCurrent s) (hd : s.DistinctIDs)
    (hacceptor : ∀ g, s.acceptor = .sendID g → s'.acceptor = .sendID g)
    (hclients : s'.clients = s.clients)
    (hclient : ∀ n, (s'.conn n).client = (s.notifyClients.conn n).client)
    (hflight : ∀ n, (s'.conn n).inFlight = (s.notifyClients.conn n).inFlight) :
    AllCurrent s' := by
  intro h hh hcon
  rw [hclients] at hh
  rcases settled_roster (s.conn h.socket) _ (countP_socket_pos hh) s.clients hd with
    ⟨hroster, hidentity⟩
  rw [← Net.conn_notifyClients] at hroster hidentity
  -- the frames on their way end with the roster
  have hsettled : (s'.conn h.socket).settled = (s.notifyClients.conn h.socket).settled := by
    rw [Connection.settled, Connection.settled, hclient, hflight]
  constructor
  · right
    rw [hsettled, hroster, hclients]
  · rw [hsettled, hidentity]
    rw [hclient, Net.conn_notifyClients] at hcon
    refine (hs h hh hcon).identity.imp_left ?_
    rintro ⟨g, hg, hgn⟩
    exact ⟨g, hacceptor g hg, hgn⟩

theorem current_accept {s : Net} (hs : AllCurrent s) (hwf : s.WellFormed)
    (hpc : s.acceptor = .accepting) (ipAddress : IpText) (sinPort : UInt16) (prev : Option ℕ) :
    AllCurrent (s.accept ipAddress sinPort prev) := by
  intro h hh hcon
  refine ⟨.inl (.inl ⟨_, .inl rfl⟩), ?_⟩
  rcases List.mem_append.1 hh with hh | hh
  · -- the clients that were there have their IDs
    right
    have hold : (s.accept ipAddress sinPort prev).conn h.socket = s.conn h.socket :=
      Function.update_of_ne (Nat.ne_of_lt (hwf.registered h hh).1) _ _
    rw [hold] at hcon ⊢
    rcases (hs h hh hcon).identity with ⟨g, hg, -⟩ | hid
    · rw [hpc] at hg
      cases hg
    · exact hid
  · left
    obtain rfl := List.mem_singleton.1 hh
    exact ⟨_, rfl, rfl⟩

theorem current_sendID {s : Net} (hs : AllCurrent s) (hwf : s.WellFormed) {g : ClientHandler}
    (hpc : s.acceptor = .sendID g) : AllCurrent (s.sendID g) := by
  intro h hh hcon
  refine ⟨.inl (.inl ⟨g, .inr rfl⟩), .inr ?_⟩
  by_cases hsock : h.socket = g.socket
  · -- the new client: its ID is on its way
    have hg := (hwf.acceptor g (by rw [hpc]; rfl)).2.1
    have heq : h = g := by
      rw [← (hwf.registered h hh).2, hsock, hg]
    subst heq
    have hput : (s.sendID h).conn h.socket = (s.conn h.socket).put _ :=
      Function.update_self _ _ _
    rw [hput, settled_put]
    exact Client.clientID_receiveBody (idMessage h.clientID) _
  · have hold : (s.sendID g).conn h.socket = s.conn h.socket := Function.update_of_ne hsock _ _
    rw [hold] at hcon ⊢
    rcases (hs h hh hcon).identity with ⟨g', hg', hsock'⟩ | hid
    · rw [hpc] at hg'
      obtain rfl := AcceptPoint.sendID.inj hg'
      exact absurd hsock'.symm hsock
    · exact hid

theorem current_broadcast {s : Net} (hs : AllCurrent s) {m : ℕ} {msg : BaseMessage UInt8}
    (hpc : (s.conn m).handler = .broadcasting msg) (hc : ControlFree s (.broadcast m)) :
    AllCurrent (s.broadcastMessage msg (s.conn m).clientHandler.clientID) := by
  refine hs.congr (Net.clients_broadcastMessage _ _ s) ?_ ?_ ?_
  · rintro (⟨g, hg⟩ | ⟨n, hn⟩)
    · refine .inl ⟨g, ?_⟩
      rw [Net.acceptor_broadcastMessage]
      exact hg
    · exact .inr ⟨n, by rw [Net.handler_conn_broadcastMessage, hn]⟩
  · intro g hg
    rw [Net.acceptor_broadcastMessage, hg]
  · intro n hcon
    rw [Net.conn_broadcastMessage] at hcon ⊢
    refine ⟨hcon, settled_relay _ _ msg _ ?_⟩
    -- somebody with another ID gets the message, so it is no control message
    intro hk hctl
    rcases List.countP_pos_iff.1 hk with ⟨h, hh, -⟩
    rcases List.mem_filter.1 hh with ⟨hmem, hid⟩
    have heq := hc msg hpc hctl h hmem
    rw [heq] at hid
    simp at hid

theorem current_spawn {s : Net} (hs : AllCurrent s) (hwf : s.WellFormed) {g : ClientHandler}
    (hpc : s.acceptor = .spawn g) :
    AllCurrent { s.modify g.socket (fun c => { c with handler := .reading }) with
      acceptor := .accepting } := by
  have habs := (hwf.acceptor g (by rw [hpc]; rfl)).2.2
  have hmod : AllCurrent (s.modify g.socket fun c => { c with handler := .reading }) := by
    refine hs.modify ?_ (fun hcon => ⟨hcon, rfl⟩)
    intro hn
    rw [habs] at hn
    cases hn
  refine hmod.congr rfl ?_ ?_ (fun _ hcon => ⟨hcon, rfl, rfl⟩)
  · rintro (⟨h, hh⟩ | hn)
    · rw [Net.acceptor_modify, hpc] at hh
      rcases hh with hh | hh <;> cases hh
    · exact .inr hn
  · intro h hh
    rw [Net.acceptor_modify, hpc] at hh
    cases hh

/-- A step keeps the registered clients current if the IDs are distinct and it
relays no control message. -/
theorem current_step {s s' : Net} {a : Action} (hs : AllCurrent s) (hwf : s.WellFormed)
    (hd : s.DistinctIDs) (h : Step s a s') (hc : ControlFree s a) : AllCurrent s' := by
  cases h with
  | accept ipAddress sinPort prev hpc hprev =>
      exact current_accept hs hwf hpc ipAddress sinPort prev
  | sendID g hpc => exact current_sendID hs hwf hpc
  | acceptNotify g hpc =>
      refine current_notifyClients hs hd ?_ (Net.clients_notifyClients s) (fun _ => rfl)
        (fun _ => rfl)
      intro g' hg'
      rw [hpc] at hg'
      cases hg'
  | spawn g hpc => exact current_spawn hs hwf hpc
  | clientSend m body hm hbody => exact hs.modify (fun h => h) (fun hcon => ⟨hcon, rfl⟩)
  | readShort m body rest hpc hbody hmsg => exact hs.modify (fun h => h) (fun hcon => ⟨hcon, rfl⟩)
  | read m body rest msg hpc hbody hmsg =>
      exact hs.modify (fun h => by rw [hpc] at h; cases h) (fun hcon => ⟨hcon, rfl⟩)
  | broadcast m msg hpc =>
      refine (current_broadcast hs hpc hc).modify ?_ (fun hcon => ⟨hcon, rfl⟩)
      intro hn
      rw [Net.handler_conn_broadcastMessage, hpc] at hn
      cases hn
  | hangup m hpc =>
      exact hs.modify (fun h => by rw [hpc] at h; cases h) (fun hcon => ⟨hcon, rfl⟩)
  | remove m hpc =>
      -- the others are told in a later step
      have hmod : AllCurrent (s.modify m fun c => { c with handler := .notifying }) :=
        hs.modify (fun _ => rfl) (fun hcon => ⟨hcon, rfl⟩)
      intro h hh hcon
      refine ⟨.inl (.inr ⟨m, ?_⟩), (hmod h (List.mem_of_mem_filter hh) hcon).identity⟩
      simp [Net.remove]
  | exitNotify m hpc =>
      -- the thread ends; its client and the frames are as `notifyClients` left them
      have hkeep : ∀ n, ∃ p,
          (s.notifyClients.modify m fun c => { c with handler := .ended }).conn n =
            { s.notifyClients.conn n with handler := p } := by
        intro n
        by_cases hnm : n = m
        · subst hnm
          exact ⟨.ended, Function.update_self _ _ _⟩
        · exact ⟨_, Function.update_of_ne hnm _ _⟩
      refine current_notifyClients hs hd ?_ (Net.clients_notifyClients s) ?_ ?_
      · intro g hg
        rw [Net.acceptor_modify, Net.acceptor_notifyClients, hg]
      · intro n
        rcases hkeep n with ⟨p, hp⟩
        rw [hp]
      · intro n
        rcases hkeep n with ⟨p, hp⟩
        rw [hp]
  | deliver m frame rest hconn hframe =>
      refine hs.modify (fun h => h) (fun hcon => ⟨hconn, ?_⟩)
      exact settled_receive _ _ _ hframe
  | lose m hconn =>
      refine hs.modify (fun h => h) (fun hcon => ?_)
      cases hcon

/-! ## Game frames only -/

/-- The bodies on their way to the server, and the message in each thread, are
events and snapshots. -/
structure GameFrames (s : Net) : Prop where
  unread : ∀ n, ∀ body ∈ (s.conn n).unread, GameFrame body
  broadcasting : ∀ n msg, (s.conn n).handler = .broadcasting msg → ¬ IsControl msg

theorem gameFrames_start : GameFrames Net.start where
  unread := fun _ _ h => absurd h List.not_mem_nil
  broadcasting := fun _ _ h => by cases h

theorem GameFrames.congr {s s' : Net} (hs : GameFrames s)
    (hunread : ∀ n, (s'.conn n).unread = (s.conn n).unread)
    (hhandler : ∀ n, (s'.conn n).handler = (s.conn n).handler) : GameFrames s' where
  unread := by
    intro n
    rw [hunread]
    exact hs.unread n
  broadcasting := by
    intro n
    rw [hhandler]
    exact hs.broadcasting n

theorem GameFrames.modify {s : Net} (hs : GameFrames s) {m : ℕ} {f : Connection → Connection}
    (hunread : ∀ body ∈ (f (s.conn m)).unread, GameFrame body)
    (hhandler : ∀ msg, (f (s.conn m)).handler = .broadcasting msg → ¬ IsControl msg) :
    GameFrames (s.modify m f) where
  unread := by
    intro n
    by_cases hnm : n = m
    · subst hnm
      simpa using hunread
    · simpa [hnm] using hs.unread n
  broadcasting := by
    intro n
    by_cases hnm : n = m
    · subst hnm
      simpa using hhandler
    · simpa [hnm] using hs.broadcasting n

theorem GameFrames.sendTo {s : Net} (hs : GameFrames s) (frame : Frame)
    (recipients : List ClientHandler) : GameFrames (s.sendTo frame recipients) :=
  hs.congr (fun n => by rw [Net.conn_sendTo]; rfl) (fun n => by rw [Net.conn_sendTo]; rfl)

/-- The message of a game frame is no control message, whoever it is stamped with. -/
theorem not_isControl_of_gameFrame {body : List UInt8} (h : GameFrame body)
    {msg : BaseMessage UInt8} (hmsg : deserializeMessage body = some msg) (c : Connection) :
    ¬ IsControl (c.stamp msg) := by
  rcases h with ⟨msg', hmsg', htype⟩
  rw [hmsg] at hmsg'
  obtain rfl := Option.some.inj hmsg'
  unfold IsControl Connection.stamp
  rcases htype with htype | htype <;> rw [htype] <;> decide

/-- The clients send game frames only. -/
def SendsGame (a : Action) : Prop := ∀ n body, a = .clientSend n body → GameFrame body

theorem gameFrames_step {s s' : Net} {a : Action} (hs : GameFrames s) (h : Step s a s')
    (ha : SendsGame a) : GameFrames s' := by
  cases h with
  | accept ipAddress sinPort prev hpc hprev =>
      constructor
      case unread =>
        intro n
        by_cases hn : n = s.accepts
        · subst hn
          simp [Net.accept, Connection.opened]
        · simpa [Net.accept, hn] using hs.unread n
      case broadcasting =>
        intro n
        by_cases hn : n = s.accepts
        · subst hn
          simp [Net.accept, Connection.opened]
        · simpa [Net.accept, hn] using hs.broadcasting n
  | sendID g hpc => exact (hs.sendTo _ [g]).congr (fun _ => rfl) (fun _ => rfl)
  | acceptNotify g hpc => exact (hs.sendTo _ s.clients).congr (fun _ => rfl) (fun _ => rfl)
  | spawn g hpc =>
      have hmod : GameFrames (s.modify g.socket fun c => { c with handler := .reading }) :=
        hs.modify (hs.unread _) (fun _ h => by cases h)
      exact hmod.congr (fun _ => rfl) (fun _ => rfl)
  | clientSend m body hm hbody =>
      refine hs.modify ?_ (hs.broadcasting m)
      intro b hb
      rcases List.mem_append.1 hb with hb | hb
      · exact hs.unread m b hb
      · obtain rfl := List.mem_singleton.1 hb
        exact ha m b rfl
  | readShort m body rest hpc hbody hmsg =>
      refine hs.modify ?_ (hs.broadcasting m)
      intro b hb
      exact hs.unread m b (by rw [hbody]; exact List.mem_cons_of_mem _ hb)
  | read m body rest msg hpc hbody hmsg =>
      refine hs.modify ?_ ?_
      · intro b hb
        exact hs.unread m b (by rw [hbody]; exact List.mem_cons_of_mem _ hb)
      · intro msg' hmsg'
        obtain rfl := HandlerPoint.broadcasting.inj hmsg'
        exact not_isControl_of_gameFrame
          (hs.unread m body (by rw [hbody]; exact List.mem_cons_self)) hmsg _
  | broadcast m msg hpc =>
      exact (hs.sendTo _ _).modify ((hs.sendTo _ _).unread m) (fun _ h => by cases h)
  | hangup m hpc => exact hs.modify (hs.unread m) (fun _ h => by cases h)
  | remove m hpc =>
      have hmod : GameFrames (s.modify m fun c => { c with handler := .notifying }) :=
        hs.modify (hs.unread m) (fun _ h => by cases h)
      exact hmod.congr (fun _ => rfl) (fun _ => rfl)
  | exitNotify m hpc =>
      have hsent : GameFrames s.notifyClients :=
        (hs.sendTo (rosterFrame s.clients) s.clients).congr (fun _ => rfl) (fun _ => rfl)
      exact hsent.modify (hsent.unread m) (fun _ h => by cases h)
  | deliver m frame rest hconn hframe => exact hs.modify (hs.unread m) (hs.broadcasting m)
  | lose m hconn => exact hs.modify (hs.unread m) (hs.broadcasting m)

theorem GameFrames.controlFree {s : Net} (hs : GameFrames s) (a : Action) : ControlFree s a := by
  cases a with
  | broadcast n =>
      intro msg hpc hctl
      exact absurd hctl (hs.broadcasting n msg hpc)
  | _ => trivial

/-! ## Whole runs -/

/-- The invariant of the runs with game frames and fewer than 256 accepts. -/
structure RosterInv (s : Net) : Prop where
  wellFormed : s.WellFormed
  gameFrames : GameFrames s
  current : s.accepts < 256 → IDsUnique s ∧ AllCurrent s

theorem rosterInv_start : RosterInv Net.start where
  wellFormed := Net.wellFormed_start
  gameFrames := gameFrames_start
  current := fun _ => ⟨idsUnique_start, fun _ hh => absurd hh List.not_mem_nil⟩

theorem rosterInv_step {s s' : Net} {a : Action} (hs : RosterInv s) (h : Step s a s')
    (ha : SendsGame a) : RosterInv s' where
  wellFormed := hs.wellFormed.step h
  gameFrames := gameFrames_step hs.gameFrames h ha
  current := by
    intro hlt
    -- there were fewer accepts before, so the IDs were distinct then
    rcases hs.current (h.accepts_le.trans_lt hlt) with ⟨hids, hcur⟩
    constructor
    · exact idsUnique_step hids h (freshID_of_lt hs.wellFormed h hlt)
    · exact current_step hcur hs.wellFormed hids.distinct h (hs.gameFrames.controlFree a)

/-- At rest every connected client holds the server's list, and its own ID. -/
theorem rosters_agree {as : List Action} {s : Net} (hrun : Run Step Net.start as s)
    (hgame : ∀ a ∈ as, SendsGame a) (haccepts : s.accepts < 256) (hquiet : ¬ s.NotifyPending)
    (hflight : ∀ h ∈ s.clients, (s.conn h.socket).client.isConnected →
      (s.conn h.socket).inFlight = []) :
    ∀ h ∈ s.clients, (s.conn h.socket).client.isConnected →
      (s.conn h.socket).client.connectedClientsInfo = rosterOf s.clients ∧
        (s.conn h.socket).client.clientID = h.clientID := by
  have hinv : RosterInv s :=
    (hrun.guarded (C := fun _ a => SendsGame a) fun a ha _ => hgame a ha).invariant
      (fun _ _ _ h hs => rosterInv_step hs h.1 h.2) rosterInv_start
  intro h hh hcon
  rcases (hinv.current haccepts).2 h hh hcon with ⟨hroster, hidentity⟩
  -- with nothing on its way the client is settled
  have hsettled : (s.conn h.socket).settled = (s.conn h.socket).client := by
    rw [Connection.settled, hflight h hh hcon]
    rfl
  rw [hsettled] at hroster hidentity
  constructor
  · rcases hroster with hpending | hroster
    · exact absurd hpending hquiet
    · exact hroster
  · rcases hidentity with ⟨g, hg, -⟩ | hidentity
    · exact absurd (.inl ⟨g, .inl hg⟩) hquiet
    · exact hidentity

/-- Two clients join, an event is relayed, and everything is delivered. -/
def restingRun : List Action :=
  joins 2 ++ [.clientSend 0 [2, 0, 7], .read 0, .broadcast 0, .deliver 0, .deliver 0, .deliver 0,
    .deliver 1, .deliver 1, .deliver 1]

/-- The state it ends in. -/
def resting : Net := (exec Net.next Net.start restingRun).get (by decide)

theorem run_resting : Run Step Net.start restingRun resting := Net.run_of_isSome (by decide)

theorem rosters_agree_resting : resting.clients.length = 2 ∧
    ∀ h ∈ resting.clients, (resting.conn h.socket).client.isConnected →
      (resting.conn h.socket).client.connectedClientsInfo = rosterOf resting.clients ∧
        (resting.conn h.socket).client.clientID = h.clientID := by
  have hwf := run_resting.invariant (fun _ _ _ h hs => hs.step h) Net.wellFormed_start
  refine ⟨rfl, rosters_agree run_resting ?game (by decide) ?quiet ?flight⟩
  case game =>
    intro a ha n body hsend
    subst hsend
    have hbody : n = 0 ∧ body = [2, 0, 7] := by simpa [restingRun, joins] using ha
    exact ⟨⟨2, 0, [7]⟩, by rw [hbody.2]; rfl, .inl rfl⟩
  case quiet =>
    have hacceptor : resting.acceptor = .accepting := by rfl
    have hfirst : (resting.conn 0).handler = .reading := by rfl
    have hsecond : (resting.conn 1).handler = .reading := by rfl
    have haccepts : resting.accepts = 2 := by rfl
    rintro (⟨g, hg⟩ | ⟨n, hn⟩)
    · rw [hacceptor] at hg
      simp at hg
    · -- two threads are reading, all others are absent
      rcases Nat.lt_or_ge n 2 with hlt | hge
      · obtain rfl | rfl : n = 0 ∨ n = 1 := by omega
        · simp [hfirst] at hn
        · simp [hsecond] at hn
      · simp [hwf.unused n (haccepts ▸ hge)] at hn
  case flight =>
    have hempty : ∀ h ∈ resting.clients, (resting.conn h.socket).inFlight.isEmpty := by decide
    exact fun h hh _ => List.isEmpty_iff.1 (hempty h hh)

end HobbitSynchrony
