import HobbitSynchrony.Relay
import HobbitSynchrony.Roster
import HobbitSynchrony.SocketSends

/-! # Sends and frames

How a state of the server send by send (`Sends`) and a state of the server frame
by frame (`Net`) belong together. A critical section that sends is one abstract
step. It is taken when the lock is released, or earlier: when `acceptClients`
sends its client ID message to a socket that the loop under the lock has already
served.

* `Place`, `Progress`: how far the abstract server is with a critical section;
* `Sim`: the state of the sends, and the state of the frames;
* `Sim.commit`: the abstract step of a critical section can be taken at any time
  in it.
-/

namespace HobbitSynchrony.Sends

open Transition

deriving instance DecidableEq for Thread

/-! ## The simulation relation -/

/-- Where the abstract server is with the critical section of one thread. -/
inductive Place where
  /-- The thread does not hold the lock. -/
  | outside
  /-- The abstract step is still to be taken: what it sends, and to whom. -/
  | before (buffer : List UInt8) (sockets : List ℕ)
  | past

/-- The sockets that have got the length from the loop under the lock, and
whether the abstract server has taken the step of the critical section. -/
structure Progress where
  served : List ℕ
  committed : Bool

namespace Progress

/-- A critical section that begins. -/
def fresh : Progress := ⟨[], false⟩

def place (g : Progress) (s : State) (thread : Thread) : Place :=
  match s.mutex with
  | some l =>
    if l.holder = thread then
      if g.committed then .past else .before l.buffer (g.served ++ l.todo)
    else .outside
  | none => .outside

/-- What the abstract server has sent to socket `r`, and the loop still has to. -/
def late (g : Progress) (s : State) (r : ℕ) : List (List UInt8) :=
  match s.mutex with
  | some l => if g.committed then List.replicate (l.todo.count r) l.buffer else []
  | none => []

/-- What the loop has sent to socket `r`, and the abstract server still has to. -/
def early (g : Progress) (s : State) (r : ℕ) : List (List UInt8) :=
  match s.mutex with
  | some l => if g.committed then [] else List.replicate (g.served.count r) l.buffer
  | none => []

end Progress

/-- The sockets a roster goes to. -/
def notified (clients : List ClientHandler) : List ℕ := clients.map ClientHandler.socket

/-- The sockets a relayed message goes to. -/
def relayedTo (clients : List ClientHandler) (excludeID : UInt8) : List ℕ :=
  (clients.filter fun h => h.clientID != excludeID).map ClientHandler.socket

/-- Where `acceptClients` is in the two models. The handler is in the abstract
one once it is in `clients`. -/
inductive AcceptSim (t : Net) : Place → AcceptPoint → HobbitSynchrony.AcceptPoint → Prop where
  | accepting : AcceptSim t .outside .accepting .accepting
  | pushing (ipAddress : IpText) (sinPort : UInt16) :
      AcceptSim t .outside (.pushing (t.newHandler ipAddress sinPort)) .accepting
  | idLength (h : ClientHandler) : AcceptSim t .outside (.idLength h) (.sendID h)
  | idBody (h : ClientHandler) : AcceptSim t .outside (.idBody h) (.notify h)
  | locking (h : ClientHandler) : AcceptSim t .outside (.locking h) (.notify h)
  | notifying (h : ClientHandler) :
      AcceptSim t (.before (serializeMessage (rosterMessage t.clients)) (notified t.clients))
        (.notifying h) (.notify h)
  | announced (h : ClientHandler) : AcceptSim t .past (.notifying h) (.spawn h)
  | spawning (h : ClientHandler) : AcceptSim t .outside (.spawning h) (.spawn h)

/-- Where a thread is in `handleClient` in the two models. -/
inductive HandlerSim (clients : List ClientHandler) (clientID : UInt8) :
    Place → HandlerPoint → HobbitSynchrony.HandlerPoint → Prop where
  | absent : HandlerSim clients clientID .outside .absent .absent
  | receiving : HandlerSim clients clientID .outside .receiving .reading
  | locking (msg : BaseMessage UInt8) :
      HandlerSim clients clientID .outside (.locking msg) (.broadcasting msg)
  | broadcasting (msg : BaseMessage UInt8) :
      HandlerSim clients clientID (.before (serializeMessage msg) (relayedTo clients clientID))
        .broadcasting (.broadcasting msg)
  | broadcasted : HandlerSim clients clientID .past .broadcasting .reading
  | erasing : HandlerSim clients clientID .outside .erasing .removing
  | lockingNotify : HandlerSim clients clientID .outside .lockingNotify .notifying
  | notifying :
      HandlerSim clients clientID
        (.before (serializeMessage (rosterMessage clients)) (notified clients))
        .notifying .notifying
  | announced : HandlerSim clients clientID .past .notifying .ended
  | ended : HandlerSim clients clientID .outside .ended .ended

/-- An accepted connection that is not in `clients` yet. -/
def AcceptPoint.unpushed : AcceptPoint → ℕ
  | .pushing _ => 1
  | _ => 0

/-- The state of the sends and the state of the frames. -/
structure Sim (g : Progress) (s : State) (t : Net) : Prop where
  clients : t.clients = s.clients
  accepts : s.accepts = t.accepts + s.acceptor.unpushed
  nextClientID : s.nextClientID = t.nextClientID + UInt8.ofNat s.acceptor.unpushed
  acceptor : AcceptSim t (g.place s .acceptClients) s.acceptor t.acceptor
  handler : ∀ n, HandlerSim s.clients (s.clientID n) (g.place s (.handleClient n)) (s.handler n)
    (t.conn n).handler
  clientID : ∀ n, s.handler n ≠ .absent → s.clientID n = (t.conn n).clientHandler.clientID
  unread : ∀ n, (t.conn n).unread = []
  /-- On every socket the messages are the same, in the same order. -/
  issued : ∀ r, s.issued r ++ g.late s r = (t.conn r).stream.map Frame.body ++ g.early s r
  unused : ∀ n, t.accepts ≤ n → (t.conn n).stream = []
  undelivered : ∀ n < t.accepts, (t.conn n).received = [] ∧
    (t.conn n).client = { Client.new with isConnected := true }

/-- The client ID message of the new connection has been begun. -/
def AcceptPoint.Introduced : AcceptPoint → Prop
  | .idBody _ => True
  | .locking _ => True
  | .notifying _ => True
  | _ => False

/-! ## The parts of the relation -/

section Place

variable {g : Progress} {s s' : State} {l : Loop}

theorem place_none (hmutex : s.mutex = none) (thread : Thread) : g.place s thread = .outside := by
  rw [Progress.place, hmutex]

theorem late_none (hmutex : s.mutex = none) (r : ℕ) : g.late s r = [] := by
  rw [Progress.late, hmutex]

theorem early_none (hmutex : s.mutex = none) (r : ℕ) : g.early s r = [] := by
  rw [Progress.early, hmutex]

theorem place_of_ne (hmutex : s.mutex = some l) {thread : Thread} (hne : l.holder ≠ thread) :
    g.place s thread = .outside := by
  rw [Progress.place, hmutex]
  exact if_neg hne

theorem place_holder (hmutex : s.mutex = some l) : g.place s l.holder =
    if g.committed then .past else .before l.buffer (g.served ++ l.todo) := by
  rw [Progress.place, hmutex]
  exact if_pos rfl

end Place

/-- Outside of its critical section the acceptor does not look at the handlers. -/
theorem AcceptSim.congr {t t' : Net} {q : AcceptPoint} {q' : HobbitSynchrony.AcceptPoint}
    (h : AcceptSim t .outside q q') (haccepts : t'.accepts = t.accepts)
    (hnext : t'.nextClientID = t.nextClientID) : AcceptSim t' .outside q q' := by
  cases h with
  | accepting => exact .accepting
  | pushing ipAddress sinPort =>
      have hnew : t'.newHandler ipAddress sinPort = t.newHandler ipAddress sinPort := by
        rw [Net.newHandler, Net.newHandler, haccepts, hnext]
      rw [← hnew]
      exact .pushing ipAddress sinPort
  | idLength h => exact .idLength h
  | idBody h => exact .idBody h
  | locking h => exact .locking h
  | spawning h => exact .spawning h

/-- A change of one connection is no business of the acceptor. -/
theorem AcceptSim.modify {t : Net} {p : Place} {q : AcceptPoint}
    {q' : HobbitSynchrony.AcceptPoint} (h : AcceptSim t p q q') {n : ℕ}
    {f : Connection → Connection} : AcceptSim (t.modify n f) p q q' := by
  cases h with
  | accepting => exact .accepting
  | pushing ipAddress sinPort => exact .pushing (t := t.modify n f) ipAddress sinPort
  | idLength h => exact .idLength h
  | idBody h => exact .idBody h
  | locking h => exact .locking h
  | notifying h => exact .notifying (t := t.modify n f) h
  | announced h => exact .announced h
  | spawning h => exact .spawning h

/-- A thread that does not hold the lock does not look at the handlers. -/
theorem HandlerSim.congr {clients clients' : List ClientHandler} {id id' : UInt8}
    {q : HandlerPoint} {q' : HobbitSynchrony.HandlerPoint}
    (h : HandlerSim clients id .outside q q') : HandlerSim clients' id' .outside q q' := by
  cases h with
  | absent => exact .absent
  | receiving => exact .receiving
  | locking msg => exact .locking msg
  | erasing => exact .erasing
  | lockingNotify => exact .lockingNotify
  | ended => exact .ended

/-- A thread that runs for the one server runs for the other. -/
theorem HandlerSim.point_absent_iff {clients : List ClientHandler} {id : UInt8} {p : Place}
    {q : HandlerPoint} {q' : HobbitSynchrony.HandlerPoint} (h : HandlerSim clients id p q q') :
    q = .absent ↔ q' = .absent := by
  cases h <;> simp

theorem HandlerSim.outside_of_absent {clients : List ClientHandler} {id : UInt8} {p : Place}
    {q' : HobbitSynchrony.HandlerPoint} (h : HandlerSim clients id p .absent q') :
    p = .outside := by
  cases h
  rfl

theorem Sim.lt_accepts {g : Progress} {s : State} {t : Net} (h : Sim g s t) (hw : t.WellFormed)
    {n : ℕ} (hn : s.handler n ≠ .absent) : n < t.accepts :=
  hw.lt_accepts fun habs => hn ((h.handler n).point_absent_iff.2 habs)

/-- The sockets of registered handlers have been accepted. -/
theorem lt_accepts_of_notified {t : Net} (hw : t.WellFormed) {r : ℕ}
    (hr : r ∈ notified t.clients) : r < t.accepts := by
  rcases List.mem_map.1 hr with ⟨h, hh, rfl⟩
  exact (hw.registered h hh).1

theorem relayedTo_sublist (clients : List ClientHandler) (excludeID : UInt8) :
    (relayedTo clients excludeID).Sublist (notified clients) :=
  (List.filter_sublist (l := clients)).map ClientHandler.socket

theorem count_socket (clients : List ClientHandler) (r : ℕ) :
    (clients.map ClientHandler.socket).count r = clients.countP fun h => h.socket == r := by
  rw [List.count, List.countP_map]
  rfl

/-- A thread that still has to send holds the message and its recipients. -/
theorem HandlerSim.of_before {clients : List ClientHandler} {id : UInt8} {buffer : List UInt8}
    {sockets : List ℕ} {q : HandlerPoint} {q' : HobbitSynchrony.HandlerPoint}
    (h : HandlerSim clients id (.before buffer sockets) q q') :
    (∃ msg, buffer = serializeMessage msg ∧ sockets = relayedTo clients id ∧
      q = .broadcasting ∧ q' = .broadcasting msg) ∨
    (buffer = serializeMessage (rosterMessage clients) ∧ sockets = notified clients ∧
      q = .notifying ∧ q' = .notifying) := by
  cases h with
  | broadcasting msg => exact .inl ⟨msg, rfl, rfl, rfl, rfl⟩
  | notifying => exact .inr ⟨rfl, rfl, rfl, rfl⟩

theorem AcceptSim.of_before {t : Net} {buffer : List UInt8} {sockets : List ℕ} {q : AcceptPoint}
    {q' : HobbitSynchrony.AcceptPoint} (h : AcceptSim t (.before buffer sockets) q q') :
    buffer = serializeMessage (rosterMessage t.clients) ∧ sockets = notified t.clients ∧
      ∃ h, q = .notifying h ∧ q' = .notify h := by
  cases h with
  | notifying h => exact ⟨rfl, rfl, h, rfl, rfl⟩

/-! ## The abstract step of a critical section -/

/-- The abstract step of a critical section that sends. -/
inductive Commits : Thread → HobbitSynchrony.Action → Prop where
  | acceptNotify : Commits .acceptClients .acceptNotify
  | broadcast (n : ℕ) : Commits (.handleClient n) (.broadcast n)
  | exitNotify (n : ℕ) : Commits (.handleClient n) (.exitNotify n)

/-- The connection is the same, up to its frames and its thread. -/
structure SameClient (c c' : Connection) : Prop where
  clientHandler : c'.clientHandler = c.clientHandler
  unread : c'.unread = c.unread
  received : c'.received = c.received
  client : c'.client = c.client

theorem nextClientID_sendTo (frame : Frame) (recipients : List ClientHandler) (t : Net) :
    (t.sendTo frame recipients).nextClientID = t.nextClientID := by
  rw [Net.sendTo_eq]

theorem sameClient_sendTo (frame : Frame) (recipients : List ClientHandler) (t : Net) (n : ℕ) :
    SameClient (t.conn n) ((t.sendTo frame recipients).conn n) := by
  rw [Net.conn_sendTo]
  exact ⟨rfl, rfl, rfl, rfl⟩

/-- A change of the thread of one connection, after a sending loop. -/
theorem SameClient.modify {t t' : Net} {n : ℕ} {f : Connection → Connection}
    (h : ∀ m, SameClient (t.conn m) (t'.conn m)) (hf : ∀ c, SameClient c (f c)) (m : ℕ) :
    SameClient (t.conn m) ((t'.modify n f).conn m) := by
  by_cases hm : m = n
  · subst hm
    rw [Net.conn_modify, Function.update_self]
    have hm := h m
    have hfm := hf (t'.conn m)
    exact ⟨hfm.clientHandler.trans hm.clientHandler, hfm.unread.trans hm.unread,
      hfm.received.trans hm.received, hfm.client.trans hm.client⟩
  · rw [Net.conn_modify, Function.update_of_ne hm]
    exact h m

theorem stream_modify {t : Net} {n : ℕ} {f : Connection → Connection}
    (hf : ∀ c, (f c).stream = c.stream) (m : ℕ) :
    ((t.modify n f).conn m).stream = (t.conn m).stream := by
  by_cases hm : m = n
  · subst hm
    rw [Net.conn_modify, Function.update_self, hf]
  · rw [Net.conn_modify, Function.update_of_ne hm]

/-- The abstract server sends the buffer of the loop to all the sockets it is
for, those the loop has served and those it has not. -/
theorem Sim.commit_of {served : List ℕ} {s : State} {t t' : Net} {l : Loop}
    (h : Sim ⟨served, false⟩ s t) (hmutex : s.mutex = some l) {f : Frame}
    (hbody : f.body = l.buffer) (hlt : ∀ r ∈ served ++ l.todo, r < t.accepts)
    (hclients : t'.clients = t.clients) (haccepts : t'.accepts = t.accepts)
    (hnext : t'.nextClientID = t.nextClientID)
    (hsame : ∀ n, SameClient (t.conn n) (t'.conn n))
    (hstream : ∀ n, (t'.conn n).stream =
      (t.conn n).stream ++ List.replicate ((served ++ l.todo).count n) f)
    (hacceptor : AcceptSim t' (Progress.place ⟨served, true⟩ s .acceptClients) s.acceptor
      t'.acceptor)
    (hhandler : ∀ n, HandlerSim s.clients (s.clientID n)
      (Progress.place ⟨served, true⟩ s (.handleClient n)) (s.handler n) (t'.conn n).handler) :
    Sim ⟨served, true⟩ s t' where
  clients := hclients.trans h.clients
  accepts := by
    rw [haccepts]
    exact h.accepts
  nextClientID := by
    rw [hnext]
    exact h.nextClientID
  acceptor := hacceptor
  handler := hhandler
  clientID := by
    intro n hn
    rw [(hsame n).clientHandler]
    exact h.clientID n hn
  unread := by
    intro n
    rw [(hsame n).unread]
    exact h.unread n
  issued := by
    intro r
    have hold := h.issued r
    simp only [Progress.late, Progress.early, hmutex, if_true, Bool.false_eq_true, if_false,
      List.append_nil] at hold ⊢
    -- the copies that are sent already, and those that are still to be sent
    rw [hstream, List.map_append, List.map_replicate, hbody, List.count_append,
      List.replicate_add, ← List.append_assoc, ← hold]
  unused := by
    intro n hn
    rw [haccepts] at hn
    have hzero : (served ++ l.todo).count n = 0 :=
      List.count_eq_zero.2 fun hmem => absurd (hlt n hmem) (Nat.not_lt.2 hn)
    rw [hstream, hzero, h.unused n hn]
    rfl
  undelivered := by
    intro n hn
    rw [haccepts] at hn
    rw [(hsame n).received, (hsame n).client]
    exact h.undelivered n hn

/-- Where the holder of the lock is before the abstract step. -/
theorem place_before {served : List ℕ} {s : State} {holder : Thread} {buffer : List UInt8}
    {todo : List ℕ} {half : Option ℕ} (hmutex : s.mutex = some ⟨holder, buffer, todo, half⟩) :
    Progress.place ⟨served, false⟩ s holder = .before buffer (served ++ todo) := by
  simpa using place_holder (g := ⟨served, false⟩) hmutex

/-- Where it is after it. -/
theorem place_past {served : List ℕ} {s : State} {holder : Thread} {buffer : List UInt8}
    {todo : List ℕ} {half : Option ℕ} (hmutex : s.mutex = some ⟨holder, buffer, todo, half⟩) :
    Progress.place ⟨served, true⟩ s holder = .past := by
  simpa using place_holder (g := ⟨served, true⟩) hmutex

/-- The step of `acceptClients` under the lock. -/
theorem Sim.commit_acceptClients {served : List ℕ} {s : State} {t : Net} {buffer : List UInt8}
    {todo : List ℕ} {half : Option ℕ} (h : Sim ⟨served, false⟩ s t) (hw : t.WellFormed)
    (hmutex : s.mutex = some ⟨.acceptClients, buffer, todo, half⟩) :
    ∃ t', HobbitSynchrony.Step t .acceptNotify t' ∧ Sim ⟨served, true⟩ s t' := by
  have hacceptor := h.acceptor
  rw [place_before hmutex] at hacceptor
  rcases hacceptor.of_before with ⟨hbuffer, hsockets, new, hq, hq'⟩
  refine ⟨_, .acceptNotify t new hq', ?_⟩
  refine h.commit_of hmutex (f := rosterFrame t.clients) hbuffer.symm ?_ ?_ ?_
    (nextClientID_sendTo _ _ t) (fun n => sameClient_sendTo _ t.clients t n) ?_ ?_ ?_
  · intro r hr
    exact lt_accepts_of_notified hw (hsockets ▸ hr)
  · exact Net.clients_notifyClients t
  · exact Net.accepts_notifyClients t
  · intro n
    show (t.notifyClients.conn n).stream = _
    rw [Net.conn_notifyClients, stream_put, hsockets, notified, count_socket]
  · rw [place_past hmutex, hq]
    exact .announced new
  · intro n
    -- no other thread holds the lock
    have hplace (c : Bool) : Progress.place ⟨served, c⟩ s (.handleClient n) = .outside :=
      place_of_ne hmutex (by simp)
    have hn := h.handler n
    rw [hplace] at hn ⊢
    show HandlerSim _ _ _ _ (t.notifyClients.conn n).handler
    rw [Net.handler_conn_notifyClients]
    exact hn

/-- Moving the thread of the holder past its critical section. -/
theorem handler_commit {served : List ℕ} {s : State} {t t' : Net} {n : ℕ} {buffer : List UInt8}
    {todo : List ℕ} {half : Option ℕ} {f : Connection → Connection}
    (h : Sim ⟨served, false⟩ s t) (hmutex : s.mutex = some ⟨.handleClient n, buffer, todo, half⟩)
    (hsame : ∀ m, (t'.conn m).handler = (t.conn m).handler)
    (hself : HandlerSim s.clients (s.clientID n) .past (s.handler n) (f (t'.conn n)).handler)
    (m : ℕ) : HandlerSim s.clients (s.clientID m)
      (Progress.place ⟨served, true⟩ s (.handleClient m)) (s.handler m)
      ((t'.modify n f).conn m).handler := by
  by_cases hm : m = n
  · subst hm
    rw [Net.conn_modify, Function.update_self, place_past hmutex]
    exact hself
  · have hplace (c : Bool) : Progress.place ⟨served, c⟩ s (.handleClient m) = .outside :=
      place_of_ne hmutex fun heq => hm (Thread.handleClient.inj heq).symm
    have hother := h.handler m
    rw [hplace] at hother ⊢
    rw [Net.conn_modify, Function.update_of_ne hm, hsame]
    exact hother

/-- `acceptClients` stays where it is. -/
theorem acceptor_commit {served : List ℕ} {s : State} {t t' : Net} {n : ℕ} {buffer : List UInt8}
    {todo : List ℕ} {half : Option ℕ} (h : Sim ⟨served, false⟩ s t)
    (hmutex : s.mutex = some ⟨.handleClient n, buffer, todo, half⟩)
    (haccepts : t'.accepts = t.accepts) (hnext : t'.nextClientID = t.nextClientID)
    (hacceptor : t'.acceptor = t.acceptor) :
    AcceptSim t' (Progress.place ⟨served, true⟩ s .acceptClients) s.acceptor t'.acceptor := by
  have hplace (c : Bool) : Progress.place ⟨served, c⟩ s .acceptClients = .outside :=
    place_of_ne hmutex (by simp)
  have hold := h.acceptor
  rw [hplace] at hold ⊢
  rw [hacceptor]
  exact hold.congr haccepts hnext

/-- The step of a thread of `handleClient` under the lock. -/
theorem Sim.commit_handleClient {served : List ℕ} {s : State} {t : Net} {n : ℕ}
    {buffer : List UInt8} {todo : List ℕ} {half : Option ℕ} (h : Sim ⟨served, false⟩ s t)
    (hw : t.WellFormed) (hmutex : s.mutex = some ⟨.handleClient n, buffer, todo, half⟩) :
    ∃ b t', Commits (.handleClient n) b ∧ HobbitSynchrony.Step t b t' ∧
      Sim ⟨served, true⟩ s t' := by
  have hhandler := h.handler n
  rw [place_before hmutex] at hhandler
  rcases hhandler.of_before with ⟨msg, hbuffer, hsockets, hq, hq'⟩ | ⟨hbuffer, hsockets, hq, hq'⟩
  · -- a relayed message
    have hid : s.clientID n = (t.conn n).clientHandler.clientID :=
      h.clientID n (by rw [hq]; simp)
    refine ⟨_, _, .broadcast n, .broadcast t n msg hq', ?_⟩
    rw [← hid]
    refine h.commit_of hmutex (f := relayFrame msg t.clients) hbuffer.symm ?_ ?_ ?_
      (nextClientID_sendTo _ _ t)
      (SameClient.modify (fun m => sameClient_sendTo _ _ t m) fun c => ⟨rfl, rfl, rfl, rfl⟩)
      ?_ ?_ ?_
    · intro r hr
      rw [hsockets, ← h.clients] at hr
      exact lt_accepts_of_notified hw ((relayedTo_sublist _ _).subset hr)
    · exact Net.clients_broadcastMessage msg (s.clientID n) t
    · exact Net.accepts_broadcastMessage msg (s.clientID n) t
    · intro m
      refine Eq.trans (stream_modify (fun c => ?_) m) ?_
      · rfl
      rw [Net.conn_broadcastMessage, stream_put, hsockets,
        relayedTo, count_socket, h.clients]
    · exact acceptor_commit h hmutex (Net.accepts_broadcastMessage _ _ t)
        (nextClientID_sendTo _ _ t) (Net.acceptor_broadcastMessage _ _ t)
    · refine handler_commit h hmutex (fun m => Net.handler_conn_broadcastMessage _ _ t m) ?_
      rw [hq]
      exact .broadcasted
  · -- the roster after a removal
    refine ⟨_, _, .exitNotify n, .exitNotify t n hq', ?_⟩
    refine h.commit_of hmutex (f := rosterFrame t.clients) ?_ ?_ ?_ ?_
      (nextClientID_sendTo _ _ t)
      (SameClient.modify (fun m => sameClient_sendTo _ _ t m) fun c => ⟨rfl, rfl, rfl, rfl⟩)
      ?_ ?_ ?_
    · rw [hbuffer, ← h.clients]
      rfl
    · intro r hr
      rw [hsockets, ← h.clients] at hr
      exact lt_accepts_of_notified hw hr
    · exact Net.clients_notifyClients t
    · exact Net.accepts_notifyClients t
    · intro m
      refine Eq.trans (stream_modify (fun c => ?_) m) ?_
      · rfl
      rw [Net.conn_notifyClients, stream_put, hsockets, notified,
        count_socket, h.clients]
    · exact acceptor_commit h hmutex (Net.accepts_notifyClients t) (nextClientID_sendTo _ _ t)
        (Net.acceptor_notifyClients t)
    · refine handler_commit h hmutex (fun m => Net.handler_conn_notifyClients t m) ?_
      rw [hq]
      exact .announced

/-- The abstract step of a critical section can be taken at any time in it. -/
theorem Sim.commit {served : List ℕ} {s : State} {t : Net} {l : Loop}
    (h : Sim ⟨served, false⟩ s t) (hw : t.WellFormed) (hmutex : s.mutex = some l) :
    ∃ b t', Commits l.holder b ∧ HobbitSynchrony.Step t b t' ∧ Sim ⟨served, true⟩ s t' := by
  obtain ⟨holder, buffer, todo, half⟩ := l
  cases holder with
  | acceptClients =>
      rcases h.commit_acceptClients hw hmutex with ⟨t', hstep, hsim⟩
      exact ⟨_, t', .acceptNotify, hstep, hsim⟩
  | handleClient n => exact h.commit_handleClient hw hmutex

end HobbitSynchrony.Sends
