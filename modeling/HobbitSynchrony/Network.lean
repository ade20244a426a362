import Mathlib.Logic.Function.Basic
import HobbitSynchrony.Lib.Run
import HobbitSynchrony.Server

/-! # The server and its clients, frame by frame

The threads of the server (`acceptClients` and one `handleClient` for each
client) and the client processes, as one transition system. A step is what a
thread does between two points where another one can come in: a critical
section under `clientsMutex` is one step, and so is the sending or receiving
of one frame.

* `Net`: the server's members, its threads, and one `Connection` a socket;
* `Step`: the steps of the threads, of the clients and of the sockets;
* `next`: the same steps as a function, to run traces with;
* `sendTo_eq`: what the loops of `broadcastMessage` and `notifyClients` do.

A connection also keeps its history (what was consumed, received, read and
relayed); no step looks at it.
-/

namespace HobbitSynchrony

open Transition

/-- Where `acceptClients` is in its loop. -/
inductive AcceptPoint where
  | accepting
  | sendID (h : ClientHandler)
  | notify (h : ClientHandler)
  | spawn (h : ClientHandler)

/-- The handler of the client that is being set up. -/
def AcceptPoint.current : AcceptPoint → Option ClientHandler
  | .accepting => none
  | .sendID h => some h
  | .notify h => some h
  | .spawn h => some h

/-- Where a thread is in `handleClient`. -/
inductive HandlerPoint where
  | absent
  | reading
  | broadcasting (msg : BaseMessage UInt8)
  | removing
  | notifying
  | ended

/-- The thread runs and has not removed its handler yet. -/
def HandlerPoint.Active : HandlerPoint → Prop
  | .reading => True
  | .broadcasting _ => True
  | .removing => True
  | _ => False

/-- A frame on a client's socket: its body, whether `broadcastMessage` sent it
and, as history, who was registered then. -/
structure Frame where
  body : List UInt8
  relayed : Bool
  present : List ClientHandler

/-- The frame of the client ID message. -/
def idFrame (clientID : UInt8) (present : List ClientHandler) : Frame where
  body := serializeMessage (idMessage clientID)
  relayed := false
  present := present

/-- The frame of the roster. -/
def rosterFrame (clients : List ClientHandler) : Frame where
  body := serializeMessage (rosterMessage clients)
  relayed := false
  present := clients

/-- The frame of a relayed message. -/
def relayFrame (msg : BaseMessage UInt8) (present : List ClientHandler) : Frame where
  body := serializeMessage msg
  relayed := true
  present := present

/-- One accepted socket, with both its ends. -/
structure Connection where
  clientHandler : ClientHandler
  client : Client
  handler : HandlerPoint
  /-- The bodies the client has sent and the handler has not read yet. -/
  unread : List (List UInt8)
  /-- The frames the server has sent and the client has not received yet. -/
  inFlight : List Frame
  /-- History: the bodies the handler has read. -/
  consumed : List (List UInt8)
  /-- History: the frames the client has received. -/
  received : List Frame
  /-- History: the messages the handler has read, with who was registered. -/
  reads : List (BaseMessage UInt8 × List ClientHandler)
  /-- History: the messages it has relayed, with who was registered. -/
  relays : List (BaseMessage UInt8 × List ClientHandler)

namespace Connection

/-- A fresh connection. -/
def opened (h : ClientHandler) (client : Client) : Connection where
  clientHandler := h
  client := client
  handler := .absent
  unread := []
  inFlight := []
  consumed := []
  received := []
  reads := []
  relays := []

/-- Everything the client has sent. -/
def sent (c : Connection) : List (List UInt8) := c.consumed ++ c.unread

/-- Everything the server has put on the socket. -/
def stream (c : Connection) : List Frame := c.received ++ c.inFlight

/-- The client sends a body. -/
def submit (body : List UInt8) (c : Connection) : Connection :=
  { c with unread := c.unread ++ [body] }

/-- The server puts frames on the socket. -/
def put (frames : List Frame) (c : Connection) : Connection :=
  { c with inFlight := c.inFlight ++ frames }

/-- The client receives the frame that is first on its way. -/
def receive (frame : Frame) (rest : List Frame) (c : Connection) : Connection :=
  { c with client := c.client.receiveBody frame.body, inFlight := rest,
           received := c.received ++ [frame] }

/-- The handler has taken a body that is no message. -/
def skip (body : List UInt8) (rest : List (List UInt8)) (c : Connection) : Connection :=
  { c with unread := rest, consumed := c.consumed ++ [body] }

/-- The message with the sender overwritten by the handler's ID. -/
def stamp (msg : BaseMessage UInt8) (c : Connection) : BaseMessage UInt8 :=
  { msg with senderID := c.clientHandler.clientID }

/-- The handler has taken a message. -/
def take (body : List UInt8) (rest : List (List UInt8)) (msg : BaseMessage UInt8)
    (present : List ClientHandler) (c : Connection) : Connection :=
  { c.skip body rest with
    reads := c.reads ++ [(c.stamp msg, present)], handler := .broadcasting (c.stamp msg) }

/-- The handler has relayed its message. -/
def relayed (msg : BaseMessage UInt8) (present : List ClientHandler) (c : Connection) :
    Connection :=
  { c with relays := c.relays ++ [(msg, present)], handler := .reading }

end Connection

/-- The server and its connections. -/
structure Net where
  clients : List ClientHandler
  nextClientID : UInt8
  acceptor : AcceptPoint
  /-- How many connections have been accepted; the next socket. -/
  accepts : ℕ
  conn : ℕ → Connection
  /-- History: the lists `notifyClients` has sent. -/
  rosters : List (List ClientHandler)

namespace Net

/-- `Server()`, with no connection yet. -/
def start : Net where
  clients := []
  nextClientID := 1
  acceptor := .accepting
  accepts := 0
  conn := fun n =>
    .opened { socket := n, clientID := 0, ipAddress := ⟨[], by decide⟩, port := 0 } .new
  rosters := []

/-- Change one connection. -/
def modify (s : Net) (n : ℕ) (f : Connection → Connection) : Net :=
  { s with conn := Function.update s.conn n (f (s.conn n)) }

/-- Both sends of a frame to one socket. -/
def send (frame : Frame) (socket : ℕ) (s : Net) : Net :=
  s.modify socket (Connection.put [frame])

/-- The loop that sends a frame to the handlers of a list. -/
def sendTo (frame : Frame) (recipients : List ClientHandler) (s : Net) : Net :=
  recipients.foldl (fun s h => s.send frame h.socket) s

/-- `broadcastMessage`. -/
def broadcastMessage (msg : BaseMessage UInt8) (excludeID : UInt8) (s : Net) : Net :=
  s.sendTo (relayFrame msg s.clients) (s.clients.filter fun h => h.clientID != excludeID)

/-- `notifyClients`. -/
def notifyClients (s : Net) : Net :=
  { s.sendTo (rosterFrame s.clients) s.clients with rosters := s.rosters ++ [s.clients] }

/-- The client process behind a new connection: a new one, or one that has
lost the connection `prev`. -/
def connecting (s : Net) (prev : Option ℕ) : Client :=
  match prev with
  | none => { Client.new with isConnected := true }
  | some p => { (s.conn p).client with isConnected := true }

/-- The handler `acceptClients` makes for the next connection. -/
def newHandler (ipAddress : IpText) (sinPort : UInt16) (s : Net) : ClientHandler where
  socket := s.accepts
  clientID := s.nextClientID
  ipAddress := ipAddress
  port := ntohs sinPort

/-- `acceptClients` up to the end of its critical section. -/
def accept (ipAddress : IpText) (sinPort : UInt16) (prev : Option ℕ) (s : Net) : Net :=
  let h := s.newHandler ipAddress sinPort
  { s with
    clients := s.clients ++ [h]
    nextClientID := s.nextClientID + 1
    acceptor := .sendID h
    accepts := s.accepts + 1
    conn := Function.update s.conn s.accepts (.opened h (s.connecting prev)) }

/-- The two sends of the client ID message. -/
def sendID (h : ClientHandler) (s : Net) : Net :=
  { s.send (idFrame h.clientID s.clients) h.socket with acceptor := .notify h }

/-- The removal at the end of `handleClient`. -/
def remove (n : ℕ) (s : Net) : Net :=
  { s.modify n (fun c => { c with handler := .notifying }) with
    clients := s.clients.filter fun ch => ch.clientID != (s.conn n).clientHandler.clientID }

end Net

inductive Action where
  | accept (ipAddress : IpText) (sinPort : UInt16) (prev : Option ℕ)
  | sendID
  | acceptNotify
  | spawn
  | clientSend (n : ℕ) (body : List UInt8)
  | read (n : ℕ)
  | broadcast (n : ℕ)
  | hangup (n : ℕ)
  | remove (n : ℕ)
  | exitNotify (n : ℕ)
  | deliver (n : ℕ)
  | lose (n : ℕ)

/-- The steps. -/
inductive Step : Net → Action → Net → Prop where
  -- `acceptClients`
  | accept (s : Net) (ipAddress : IpText) (sinPort : UInt16) (prev : Option ℕ)
      (hpc : s.acceptor = .accepting)
      (hprev : ∀ p, prev = some p → p < s.accepts ∧ (s.conn p).client.isConnected = false) :
      Step s (.accept ipAddress sinPort prev) (s.accept ipAddress sinPort prev)
  | sendID (s : Net) (h : ClientHandler) (hpc : s.acceptor = .sendID h) :
      Step s .sendID (s.sendID h)
  | acceptNotify (s : Net) (h : ClientHandler) (hpc : s.acceptor = .notify h) :
      Step s .acceptNotify { s.notifyClients with acceptor := .spawn h }
  | spawn (s : Net) (h : ClientHandler) (hpc : s.acceptor = .spawn h) :
      Step s .spawn
        { s.modify h.socket (fun c => { c with handler := .reading }) with acceptor := .accepting }
  -- the client processes
  | clientSend (s : Net) (n : ℕ) (body : List UInt8) (hn : n < s.accepts)
      (hbody : body.length < 2 ^ 32) :
      Step s (.clientSend n body) (s.modify n (Connection.submit body))
  -- `handleClient`
  | readShort (s : Net) (n : ℕ) (body : List UInt8) (rest : List (List UInt8))
      (hpc : (s.conn n).handler = .reading) (hbody : (s.conn n).unread = body :: rest)
      (hmsg : deserializeMessage body = none) :
      Step s (.read n) (s.modify n (Connection.skip body rest))
  | read (s : Net) (n : ℕ) (body : List UInt8) (rest : List (List UInt8))
      (msg : BaseMessage UInt8) (hpc : (s.conn n).handler = .reading)
      (hbody : (s.conn n).unread = body :: rest) (hmsg : deserializeMessage body = some msg) :
      Step s (.read n) (s.modify n (Connection.take body rest msg s.clients))
  | broadcast (s : Net) (n : ℕ) (msg : BaseMessage UInt8)
      (hpc : (s.conn n).handler = .broadcasting msg) :
      Step s (.broadcast n)
        ((s.broadcastMessage msg (s.conn n).clientHandler.clientID).modify n
          (Connection.relayed msg s.clients))
  | hangup (s : Net) (n : ℕ) (hpc : (s.conn n).handler = .reading) :
      Step s (.hangup n) (s.modify n fun c => { c with handler := .removing })
  | remove (s : Net) (n : ℕ) (hpc : (s.conn n).handler = .removing) :
      Step s (.remove n) (s.remove n)
  | exitNotify (s : Net) (n : ℕ) (hpc : (s.conn n).handler = .notifying) :
      Step s (.exitNotify n) (s.notifyClients.modify n fun c => { c with handler := .ended })
  -- the sockets
  | deliver (s : Net) (n : ℕ) (frame : Frame) (rest : List Frame)
      (hconn : (s.conn n).client.isConnected) (hframe : (s.conn n).inFlight = frame :: rest) :
      Step s (.deliver n) (s.modify n (Connection.receive frame rest))
  | lose (s : Net) (n : ℕ) (hconn : (s.conn n).client.isConnected) :
      Step s (.lose n) (s.modify n fun c => { c with client := c.client.notifyServerDown })

/-- `k` clients connect, one after the other, and stay. -/
def joins : ℕ → List Action
  | 0 => []
  | k + 1 => joins k ++ [.accept localhost 0xF0D2 none, .sendID, .acceptNotify, .spawn]

namespace Net

/-- The steps as a function, `none` if the action cannot be taken. -/
def next (s : Net) : Action → Option Net
  | .accept ipAddress sinPort prev =>
    match s.acceptor with
    | .accepting =>
      if prev.all fun p => p < s.accepts && !(s.conn p).client.isConnected then
        some (s.accept ipAddress sinPort prev)
      else none
    | _ => none
  | .sendID =>
    match s.acceptor with
    | .sendID h => some (s.sendID h)
    | _ => none
  | .acceptNotify =>
    match s.acceptor with
    | .notify h => some { s.notifyClients with acceptor := .spawn h }
    | _ => none
  | .spawn =>
    match s.acceptor with
    | .spawn h => some
        { s.modify h.socket (fun c => { c with handler := .reading }) with acceptor := .accepting }
    | _ => none
  | .clientSend n body =>
    if n < s.accepts ∧ body.length < 2 ^ 32 then
      some (s.modify n (Connection.submit body))
    else none
  | .read n =>
    match (s.conn n).handler, (s.conn n).unread with
    | .reading, body :: rest =>
      match deserializeMessage body with
      | none => some (s.modify n (Connection.skip body rest))
      | some msg => some (s.modify n (Connection.take body rest msg s.clients))
    | _, _ => none
  | .broadcast n =>
    match (s.conn n).handler with
    | .broadcasting msg => some
        ((s.broadcastMessage msg (s.conn n).clientHandler.clientID).modify n
          (Connection.relayed msg s.clients))
    | _ => none
  | .hangup n =>
    match (s.conn n).handler with
    | .reading => some (s.modify n fun c => { c with handler := .removing })
    | _ => none
  | .remove n =>
    match (s.conn n).handler with
    | .removing => some (s.remove n)
    | _ => none
  | .exitNotify n =>
    match (s.conn n).handler with
    | .notifying => some (s.notifyClients.modify n fun c => { c with handler := .ended })
    | _ => none
  | .deliver n =>
    match (s.conn n).inFlight with
    | frame :: rest =>
      if (s.conn n).client.isConnected then some (s.modify n (Connection.receive frame rest))
      else none
    | [] => none
  | .lose n =>
    if (s.conn n).client.isConnected then
      some (s.modify n fun c => { c with client := c.client.notifyServerDown })
    else none

/-- The function only takes steps. -/
theorem step_of_next {s s' : Net} {a : Action} (h : s.next a = some s') : Step s a s' := by
  cases a <;> simp only [next] at h
  case accept ipAddress sinPort prev =>
    split at h
    next hpc =>
      split at h
      next hprev =>
        cases h
        refine .accept s ipAddress sinPort prev hpc ?_
        rintro p rfl
        simpa using hprev
      next => cases h
    next => cases h
  case sendID =>
    split at h
    next g hpc =>
      cases h
      exact .sendID s g hpc
    next => cases h
  case acceptNotify =>
    split at h
    next g hpc =>
      cases h
      exact .acceptNotify s g hpc
    next => cases h
  case spawn =>
    split at h
    next g hpc =>
      cases h
      exact .spawn s g hpc
    next => cases h
  case clientSend n body =>
    split at h
    next hg =>
      cases h
      exact .clientSend s n body hg.1 hg.2
    next => cases h
  case read n =>
    split at h
    next body rest hpc hbody =>
      split at h
      next hmsg =>
        cases h
        exact .readShort s n body rest hpc hbody hmsg
      next msg hmsg =>
        cases h
        exact .read s n body rest msg hpc hbody hmsg
    next => cases h
  case broadcast n =>
    split at h
    next msg hpc =>
      cases h
      exact .broadcast s n msg hpc
    next => cases h
  case hangup n =>
    split at h
    next hpc =>
      cases h
      exact .hangup s n hpc
    next => cases h
  case remove n =>
    split at h
    next hpc =>
      cases h
      exact .remove s n hpc
    next => cases h
  case exitNotify n =>
    split at h
    next hpc =>
      cases h
      exact .exitNotify s n hpc
    next => cases h
  case deliver n =>
    split at h
    next frame rest hframe =>
      split at h
      next hconn =>
        cases h
        exact .deliver s n frame rest hconn hframe
      next => cases h
    next => cases h
  case lose n =>
    split at h
    next hconn =>
      cases h
      exact .lose s n hconn
    next => cases h

/-- A trace the function takes is a run. -/
theorem run_of_next {s s' : Net} {as : List Action} (h : exec next s as = some s') :
    Run Step s as s' :=
  (run_of_exec h).mono fun _ _ _ hs => step_of_next hs

/-- The state at the end of a trace, and the run to it. -/
theorem run_of_isSome {s : Net} {as : List Action} (h : (exec next s as).isSome) :
    Run Step s as ((exec next s as).get h) :=
  run_of_next (Option.some_get h).symm

/-! ## The sending loops -/

/-- The sending loop appends the frame once for every recipient on a socket. -/
theorem sendTo_eq (frame : Frame) (recipients : List ClientHandler) (s : Net) :
    s.sendTo frame recipients =
      { s with conn := fun n =>
          (s.conn n).put (List.replicate (recipients.countP fun h => h.socket == n) frame) } := by
  induction recipients generalizing s with
  | nil => simp [sendTo, Connection.put]
  | cons h recipients ih =>
      -- the first send, then the rest of the loop
      have hcons : s.sendTo frame (h :: recipients) =
          (s.send frame h.socket).sendTo frame recipients := rfl
      rw [hcons, ih]
      simp only [send, modify]
      congr 1
      funext n
      by_cases hn : n = h.socket
      · subst hn
        simp [Connection.put, List.replicate_succ]
      · have hne : (h.socket == n) = false := by simpa using fun heq => hn heq.symm
        simp [Function.update_of_ne hn, hne]

@[simp] theorem clients_sendTo (frame : Frame) (recipients : List ClientHandler) (s : Net) :
    (s.sendTo frame recipients).clients = s.clients := by
  rw [sendTo_eq]

@[simp] theorem acceptor_sendTo (frame : Frame) (recipients : List ClientHandler) (s : Net) :
    (s.sendTo frame recipients).acceptor = s.acceptor := by
  rw [sendTo_eq]

@[simp] theorem accepts_sendTo (frame : Frame) (recipients : List ClientHandler) (s : Net) :
    (s.sendTo frame recipients).accepts = s.accepts := by
  rw [sendTo_eq]

@[simp] theorem rosters_sendTo (frame : Frame) (recipients : List ClientHandler) (s : Net) :
    (s.sendTo frame recipients).rosters = s.rosters := by
  rw [sendTo_eq]

theorem conn_sendTo (frame : Frame) (recipients : List ClientHandler) (s : Net) (n : ℕ) :
    (s.sendTo frame recipients).conn n =
      (s.conn n).put (List.replicate (recipients.countP fun h => h.socket == n) frame) := by
  rw [sendTo_eq]

theorem conn_notifyClients (s : Net) (n : ℕ) :
    s.notifyClients.conn n = (s.conn n).put
      (List.replicate (s.clients.countP fun h => h.socket == n) (rosterFrame s.clients)) :=
  conn_sendTo _ s.clients s n

theorem conn_broadcastMessage (msg : BaseMessage UInt8) (excludeID : UInt8) (s : Net) (n : ℕ) :
    (s.broadcastMessage msg excludeID).conn n = (s.conn n).put
      (List.replicate ((s.clients.filter fun h => h.clientID != excludeID).countP
        fun h => h.socket == n) (relayFrame msg s.clients)) :=
  conn_sendTo _ _ s n

@[simp] theorem handler_conn_sendTo (frame : Frame) (recipients : List ClientHandler) (s : Net)
    (n : ℕ) : ((s.sendTo frame recipients).conn n).handler = (s.conn n).handler := by
  rw [conn_sendTo]
  rfl

@[simp] theorem handler_conn_notifyClients (s : Net) (n : ℕ) :
    (s.notifyClients.conn n).handler = (s.conn n).handler :=
  handler_conn_sendTo _ _ s n

@[simp] theorem handler_conn_broadcastMessage (msg : BaseMessage UInt8) (excludeID : UInt8)
    (s : Net) (n : ℕ) :
    ((s.broadcastMessage msg excludeID).conn n).handler = (s.conn n).handler :=
  handler_conn_sendTo _ _ s n

@[simp] theorem clientHandler_conn_sendTo (frame : Frame) (recipients : List ClientHandler)
    (s : Net) (n : ℕ) :
    ((s.sendTo frame recipients).conn n).clientHandler = (s.conn n).clientHandler := by
  rw [conn_sendTo]
  rfl

@[simp] theorem clientHandler_conn_notifyClients (s : Net) (n : ℕ) :
    (s.notifyClients.conn n).clientHandler = (s.conn n).clientHandler :=
  clientHandler_conn_sendTo _ _ s n

@[simp] theorem clientHandler_conn_broadcastMessage (msg : BaseMessage UInt8) (excludeID : UInt8)
    (s : Net) (n : ℕ) :
    ((s.broadcastMessage msg excludeID).conn n).clientHandler = (s.conn n).clientHandler :=
  clientHandler_conn_sendTo _ _ s n

@[simp] theorem clients_notifyClients (s : Net) : s.notifyClients.clients = s.clients :=
  clients_sendTo _ _ s

@[simp] theorem acceptor_notifyClients (s : Net) : s.notifyClients.acceptor = s.acceptor :=
  acceptor_sendTo _ _ s

@[simp] theorem accepts_notifyClients (s : Net) : s.notifyClients.accepts = s.accepts :=
  accepts_sendTo _ _ s

@[simp] theorem acceptor_broadcastMessage (msg : BaseMessage UInt8) (excludeID : UInt8) (s : Net) :
    (s.broadcastMessage msg excludeID).acceptor = s.acceptor :=
  acceptor_sendTo _ _ s

@[simp] theorem accepts_broadcastMessage (msg : BaseMessage UInt8) (excludeID : UInt8) (s : Net) :
    (s.broadcastMessage msg excludeID).accepts = s.accepts :=
  accepts_sendTo _ _ s

@[simp] theorem rosters_broadcastMessage (msg : BaseMessage UInt8) (excludeID : UInt8) (s : Net) :
    (s.broadcastMessage msg excludeID).rosters = s.rosters :=
  rosters_sendTo _ _ s

@[simp] theorem clients_broadcastMessage (msg : BaseMessage UInt8) (excludeID : UInt8) (s : Net) :
    (s.broadcastMessage msg excludeID).clients = s.clients :=
  clients_sendTo _ _ s

@[simp] theorem socket_newHandler (ipAddress : IpText) (sinPort : UInt16) (s : Net) :
    (s.newHandler ipAddress sinPort).socket = s.accepts := rfl

@[simp] theorem clientID_newHandler (ipAddress : IpText) (sinPort : UInt16) (s : Net) :
    (s.newHandler ipAddress sinPort).clientID = s.nextClientID := rfl

@[simp] theorem conn_modify (s : Net) (n : ℕ) (f : Connection → Connection) :
    (s.modify n f).conn = Function.update s.conn n (f (s.conn n)) := rfl

@[simp] theorem clients_modify (s : Net) (n : ℕ) (f : Connection → Connection) :
    (s.modify n f).clients = s.clients := rfl

@[simp] theorem accepts_modify (s : Net) (n : ℕ) (f : Connection → Connection) :
    (s.modify n f).accepts = s.accepts := rfl

@[simp] theorem acceptor_modify (s : Net) (n : ℕ) (f : Connection → Connection) :
    (s.modify n f).acceptor = s.acceptor := rfl

@[simp] theorem rosters_modify (s : Net) (n : ℕ) (f : Connection → Connection) :
    (s.modify n f).rosters = s.rosters := rfl

end Net

end HobbitSynchrony
