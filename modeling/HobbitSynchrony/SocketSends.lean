import Mathlib.Logic.Function.Basic
import HobbitSynchrony.Lib.Run
import HobbitSynchrony.Server

/-! # The server, send by send

The threads of the server once more, at the grain of single `send` calls and of
`clientsMutex`. A message takes two sends, the length and then the body. The
loops of `broadcastMessage` and `notifyClients` send under the lock; the client
ID message of `acceptClients` is sent without it, to a socket that is already
in `clients`.

* `State`, `step`: the threads, the lock and the bytes on every socket;
* `Framed`: the bytes of a socket are whole frames, and one that is begun;
* `Clear`: a length is sent while no message of that socket is half sent;
* `framed_of_clear`: then all sockets stay framed;
* `id_message_split`: a broadcast that cuts a client ID message in two.
-/

namespace HobbitSynchrony.Sends

open Transition

/-- The threads that take `clientsMutex`. -/
inductive Thread where
  | acceptClients
  | handleClient (n : ℕ)

/-- A critical section that sends: what is sent, the sockets it has still to go
to, and the socket that has got the length only. -/
structure Loop where
  holder : Thread
  buffer : List UInt8
  todo : List ℕ
  half : Option ℕ

/-- Where `acceptClients` is. -/
inductive AcceptPoint where
  | accepting
  | pushing (h : ClientHandler)
  | idLength (h : ClientHandler)
  | idBody (h : ClientHandler)
  | locking (h : ClientHandler)
  | notifying (h : ClientHandler)
  | spawning (h : ClientHandler)

/-- Where a thread is in `handleClient`. -/
inductive HandlerPoint where
  | absent
  | receiving
  | locking (msg : BaseMessage UInt8)
  | broadcasting
  | erasing
  | lockingNotify
  | notifying
  | ended

/-- The threads of the server and the bytes on its sockets. -/
structure State where
  clients : List ClientHandler
  nextClientID : UInt8
  accepts : ℕ
  acceptor : AcceptPoint
  handler : ℕ → HandlerPoint
  /-- The local `clientID` of `handleClient`. -/
  clientID : ℕ → UInt8
  /-- `clientsMutex`, with the critical section it is held for. -/
  mutex : Option Loop
  /-- The bytes written to a socket. -/
  wire : ℕ → List UInt8
  /-- History: the messages whose length was sent on a socket. -/
  issued : ℕ → List (List UInt8)

inductive Action where
  | accept (ipAddress : IpText) (sinPort : UInt16)
  | push
  | sendIDLength
  | sendIDBody
  | acceptNotify
  | spawn
  | receive (n : ℕ) (body : List UInt8)
  | broadcast (n : ℕ)
  | hangup (n : ℕ)
  | erase (n : ℕ)
  | exitNotify (n : ℕ)
  | sendLength
  | sendBody
  | unlock

namespace State

/-- No connection yet. -/
def start : State where
  clients := []
  nextClientID := 1
  accepts := 0
  acceptor := .accepting
  handler := fun _ => .absent
  clientID := fun _ => 0
  mutex := none
  wire := fun _ => []
  issued := fun _ => []

/-- `send` of the length. -/
def putLength (buffer : List UInt8) (r : ℕ) (s : State) : State :=
  { s with
    wire := Function.update s.wire r (s.wire r ++ frameHeader buffer)
    issued := Function.update s.issued r (s.issued r ++ [buffer]) }

/-- `send` of the body. -/
def putBody (buffer : List UInt8) (r : ℕ) (s : State) : State :=
  { s with wire := Function.update s.wire r (s.wire r ++ buffer) }

/-- The body of the roster message. -/
def roster (s : State) : List UInt8 := serializeMessage (rosterMessage s.clients)

/-- `notifyClients`, once `holder` has the lock. -/
def notifyClients (holder : Thread) (s : State) : Loop where
  holder := holder
  buffer := s.roster
  todo := s.clients.map ClientHandler.socket
  half := none

/-- `broadcastMessage`, once `holder` has the lock. -/
def broadcastMessage (holder : Thread) (msg : BaseMessage UInt8) (excludeID : UInt8) (s : State) :
    Loop where
  holder := holder
  buffer := serializeMessage msg
  todo := (s.clients.filter fun h => h.clientID != excludeID).map ClientHandler.socket
  half := none

/-- The end of a critical section. -/
def release (holder : Thread) (s : State) : State :=
  match holder with
  | .acceptClients =>
    { s with
      mutex := none
      acceptor := match s.acceptor with
        | .notifying h => .spawning h
        | p => p }
  | .handleClient n =>
    { s with
      mutex := none
      handler := Function.update s.handler n (match s.handler n with
        | .broadcasting => .receiving
        | .notifying => .ended
        | p => p) }

end State

/-- The body of the client ID message. -/
def idBuffer (h : ClientHandler) : List UInt8 := serializeMessage (idMessage h.clientID)

/-- One step of one thread, `none` if it cannot be taken. -/
def step (s : State) : Action → Option State
  | .accept ipAddress sinPort =>
    match s.acceptor with
    | .accepting => some
        { s with
          nextClientID := s.nextClientID + 1
          accepts := s.accepts + 1
          acceptor := .pushing
            { socket := s.accepts, clientID := s.nextClientID, ipAddress := ipAddress,
              port := ntohs sinPort } }
    | _ => none
  | .push =>
    match s.acceptor, s.mutex with
    | .pushing h, none => some { s with clients := s.clients ++ [h], acceptor := .idLength h }
    | _, _ => none
  -- the two sends of the client ID message, without the lock
  | .sendIDLength =>
    match s.acceptor with
    | .idLength h => some { s.putLength (idBuffer h) h.socket with acceptor := .idBody h }
    | _ => none
  | .sendIDBody =>
    match s.acceptor with
    | .idBody h => some { s.putBody (idBuffer h) h.socket with acceptor := .locking h }
    | _ => none
  | .acceptNotify =>
    match s.acceptor, s.mutex with
    | .locking h, none => some
        { s with mutex := some (s.notifyClients .acceptClients), acceptor := .notifying h }
    | _, _ => none
  | .spawn =>
    match s.acceptor with
    | .spawning h => some
        { s with
          handler := Function.update s.handler h.socket .receiving
          clientID := Function.update s.clientID h.socket h.clientID
          acceptor := .accepting }
    | _ => none
  -- a body is received, and its sender replaced; the lock is still to be taken
  | .receive n body =>
    match s.handler n with
    | .receiving =>
      if body.length < 2 ^ 32 then
        match deserializeMessage body with
        | none => some s
        | some msg => some
            { s with handler :=
                Function.update s.handler n (.locking { msg with senderID := s.clientID n }) }
      else none
    | _ => none
  | .broadcast n =>
    match s.handler n, s.mutex with
    | .locking msg, none => some
        { s with
          mutex := some (s.broadcastMessage (.handleClient n) msg (s.clientID n))
          handler := Function.update s.handler n .broadcasting }
    | _, _ => none
  | .hangup n =>
    match s.handler n with
    | .receiving => some { s with handler := Function.update s.handler n .erasing }
    | _ => none
  | .erase n =>
    match s.handler n, s.mutex with
    | .erasing, none => some
        { s with
          clients := s.clients.filter fun ch => ch.clientID != s.clientID n
          handler := Function.update s.handler n .lockingNotify }
    | _, _ => none
  | .exitNotify n =>
    match s.handler n, s.mutex with
    | .lockingNotify, none => some
        { s with
          mutex := some (s.notifyClients (.handleClient n))
          handler := Function.update s.handler n .notifying }
    | _, _ => none
  -- the loop of the holder of the lock
  | .sendLength =>
    match s.mutex with
    | some ⟨holder, buffer, r :: rest, none⟩ => some
        { s.putLength buffer r with mutex := some ⟨holder, buffer, rest, some r⟩ }
    | _ => none
  | .sendBody =>
    match s.mutex with
    | some ⟨holder, buffer, rest, some r⟩ => some
        { s.putBody buffer r with mutex := some ⟨holder, buffer, rest, none⟩ }
    | _ => none
  | .unlock =>
    match s.mutex with
    | some ⟨holder, _, [], none⟩ => some (s.release holder)
    | _ => none

/-! ## Frames -/

/-- The frame of a message: its length and its body. -/
def frameBytes (buffer : List UInt8) : List UInt8 := frameHeader buffer ++ buffer

/-- The bytes `wire` are whole frames of messages of `issued`, and at most one
that is partly written. The lengths in the frames are the lengths of the bodies. -/
def Framed (issued : List (List UInt8)) (wire : List UInt8) : Prop :=
  ∃ whole rest : List _, wire = whole.flatMap frameBytes ++ rest ∧
    (∀ b ∈ whole, b ∈ issued ∧ b.length < 2 ^ 32) ∧
    (rest = [] ∨ ∃ b ∈ issued, b.length < 2 ^ 32 ∧ rest <+: frameBytes b)

/-- The client ID message, while only its length has gone to socket `r`. -/
def AcceptPoint.pending (r : ℕ) : AcceptPoint → List (List UInt8)
  | .idBody h => if h.socket = r then [idBuffer h] else []
  | _ => []

/-- The message of a loop, while only its length has gone to socket `r`. -/
def Loop.pending (r : ℕ) (l : Loop) : List (List UInt8) :=
  if l.half = some r then [l.buffer] else []

/-- The messages of which a thread has sent only the length to socket `r`. -/
def State.pending (s : State) (r : ℕ) : List (List UInt8) :=
  s.acceptor.pending r ++ (s.mutex.map (Loop.pending r)).getD []

/-- The socket a step sends a length to. -/
def State.lengthTo (s : State) : Action → Option ℕ
  | .sendIDLength =>
    match s.acceptor with
    | .idLength h => some h.socket
    | _ => none
  | .sendLength =>
    match s.mutex with
    | some ⟨_, _, r :: _, none⟩ => some r
    | _ => none
  | _ => none

/-- The steps that write the roster. -/
def Action.Notifies : Action → Prop
  | .acceptNotify => True
  | .exitNotify _ => True
  | _ => False

/-- No thread is between its two sends on the socket the step sends a length
to, and a roster the step writes has a length that fits into four bytes. -/
structure Clear (s : State) (a : Action) : Prop where
  alone : ∀ r, s.lengthTo a = some r → s.pending r = []
  fits : a.Notifies → s.roster.length < 2 ^ 32

instance (a : Action) : Decidable a.Notifies := by
  unfold Action.Notifies
  split <;> infer_instance

instance (s : State) (a : Action) : Decidable (Clear s a) :=
  decidable_of_iff ((∀ r ∈ s.lengthTo a, s.pending r = []) ∧
      (a.Notifies → s.roster.length < 2 ^ 32))
    ⟨fun h => ⟨h.1, h.2⟩, fun h => ⟨h.alone, h.fits⟩⟩

/-! ## The messages that wait to be sent -/

/-- Every message a thread is about to send, or is sending, has a length that
fits into four bytes. -/
structure Short (s : State) : Prop where
  loop : ∀ l, s.mutex = some l → l.buffer.length < 2 ^ 32
  msg : ∀ n msg, s.handler n = .locking msg → (serializeMessage msg).length < 2 ^ 32

theorem short_start : Short State.start where
  loop := by
    intro l hl
    cases hl
  msg := by
    intro n msg hn
    cases hn

/-- Moving one thread on keeps the bound of the others. -/
theorem locking_update {handler : ℕ → HandlerPoint} {n : ℕ} {p : HandlerPoint}
    (h : ∀ n msg, handler n = .locking msg → (serializeMessage msg).length < 2 ^ 32)
    (hp : ∀ msg, p = .locking msg → (serializeMessage msg).length < 2 ^ 32) :
    ∀ m msg, Function.update handler n p m = .locking msg →
      (serializeMessage msg).length < 2 ^ 32 := by
  intro m msg hm
  by_cases hmn : m = n
  · subst hmn
    rw [Function.update_self] at hm
    exact hp msg hm
  · rw [Function.update_of_ne hmn] at hm
    exact h m msg hm

theorem short_release {s : State} (hs : Short s) (holder : Thread) : Short (s.release holder) := by
  cases holder with
  | acceptClients =>
      refine ⟨?_, hs.msg⟩
      intro l hl
      cases hl
  | handleClient n =>
      refine ⟨?_, locking_update hs.msg ?_⟩
      · intro l hl
        cases hl
      · intro msg hmsg
        -- the thread was in the critical section, or it is where it was
        split at hmsg
        · cases hmsg
        · cases hmsg
        · exact hs.msg n msg hmsg

/-! ## What a step sends -/

/-- What a step does to the sockets: nothing, or the length of `b` on `r`, or
the body of `b` after its length. -/
inductive Effect (s s' : State) : Prop where
  | quiet (hwire : s'.wire = s.wire) (hissued : s'.issued = s.issued)
      (hpending : s'.pending = s.pending)
  | length (b : List UInt8) (r : ℕ) (hshort : b.length < 2 ^ 32) (hnone : s.pending r = [])
      (hwire : s'.wire = Function.update s.wire r (s.wire r ++ frameHeader b))
      (hissued : s'.issued = Function.update s.issued r (s.issued r ++ [b]))
      (hpending : s'.pending = Function.update s.pending r [b])
  | body (b : List UInt8) (r : ℕ) (hsome : s.pending r = [b])
      (hwire : s'.wire = Function.update s.wire r (s.wire r ++ b))
      (hissued : s'.issued = s.issued)
      (hpending : s'.pending = Function.update s.pending r [])

/-- A step that leaves the half-sent messages of both threads alone is quiet. -/
theorem Effect.of_eq {s s' : State} (hwire : s'.wire = s.wire) (hissued : s'.issued = s.issued)
    (hacceptor : ∀ r, s'.acceptor.pending r = s.acceptor.pending r)
    (hmutex : ∀ r, (s'.mutex.map (Loop.pending r)).getD [] =
      (s.mutex.map (Loop.pending r)).getD []) : Effect s s' := by
  refine .quiet hwire hissued ?_
  funext r
  rw [State.pending, State.pending, hacceptor, hmutex]

theorem effect_release {s : State} (holder : Thread) (hmutex : s.mutex.map Loop.half = some none) :
    Effect s (s.release holder) := by
  have hnone : ∀ r, (s.mutex.map (Loop.pending r)).getD [] = [] := by
    intro r
    rcases Option.map_eq_some_iff.1 hmutex with ⟨l, hl, hhalf⟩
    rw [hl, Option.map_some, Option.getD_some, Loop.pending, hhalf, if_neg (by simp)]
  cases holder with
  | acceptClients =>
      refine .of_eq rfl rfl ?_ fun r => (hnone r).symm
      intro r
      simp only [State.release]
      split
      next hpc => rw [hpc]; rfl
      next => rfl
  | handleClient n => exact .of_eq rfl rfl (fun _ => rfl) fun r => (hnone r).symm

/-- The acceptor sends the length of the client ID message. -/
theorem effect_idLength {s : State} {h : ClientHandler} (hpc : s.acceptor = .idLength h)
    (hnone : s.pending h.socket = []) :
    Effect s { s.putLength (idBuffer h) h.socket with acceptor := .idBody h } := by
  refine .length (idBuffer h) h.socket (by simp [idBuffer, idMessage]) hnone rfl rfl ?_
  funext q
  by_cases hq : q = h.socket
  · subst hq
    have hmutex := (List.append_eq_nil_iff.1 hnone).2
    rw [Function.update_self, State.pending]
    simp only [AcceptPoint.pending, if_true, State.putLength]
    rw [hmutex]
    rfl
  · have hne : ¬ h.socket = q := fun heq => hq heq.symm
    rw [Function.update_of_ne hq, State.pending, State.pending, hpc]
    simp only [AcceptPoint.pending, if_neg hne]
    rfl

/-- The acceptor sends the body of the client ID message. -/
theorem effect_idBody {s : State} {h : ClientHandler} (hpc : s.acceptor = .idBody h)
    (hone : (s.pending h.socket).length ≤ 1) :
    Effect s { s.putBody (idBuffer h) h.socket with acceptor := .locking h } := by
  have hacceptor : s.acceptor.pending h.socket = [idBuffer h] := by
    rw [hpc, AcceptPoint.pending, if_pos rfl]
  -- the socket has one half-sent message at most, and it is this one
  have hmutex : (s.mutex.map (Loop.pending h.socket)).getD [] = [] := by
    rw [State.pending, hacceptor, List.length_append, List.length_singleton] at hone
    exact List.eq_nil_of_length_eq_zero (by omega)
  have hsome : s.pending h.socket = [idBuffer h] := by
    rw [State.pending, hacceptor, hmutex, List.append_nil]
  refine .body (idBuffer h) h.socket hsome rfl rfl ?_
  funext q
  by_cases hq : q = h.socket
  · subst hq
    rw [Function.update_self, State.pending]
    exact hmutex
  · have hne : ¬ h.socket = q := fun heq => hq heq.symm
    rw [Function.update_of_ne hq, State.pending, State.pending, hpc]
    simp only [AcceptPoint.pending, if_neg hne]
    rfl

/-- The holder of the lock sends a length. -/
theorem effect_sendLength {s : State} {holder : Thread} {buffer : List UInt8} {r : ℕ}
    {rest : List ℕ} (hmutex : s.mutex = some ⟨holder, buffer, r :: rest, none⟩)
    (hshort : buffer.length < 2 ^ 32) (hnone : s.pending r = []) :
    Effect s { s.putLength buffer r with mutex := some ⟨holder, buffer, rest, some r⟩ } := by
  refine .length buffer r hshort hnone rfl rfl ?_
  funext q
  by_cases hq : q = r
  · subst hq
    have hacceptor := (List.append_eq_nil_iff.1 hnone).1
    rw [Function.update_self, State.pending]
    simp only [Option.map_some, Option.getD_some, Loop.pending, if_true, State.putLength]
    rw [hacceptor]
    rfl
  · have hne : ¬ (some r = some q) := fun heq => hq (Option.some.inj heq).symm
    rw [Function.update_of_ne hq, State.pending, State.pending, hmutex]
    simp only [Option.map_some, Option.getD_some, Loop.pending, if_neg hne]
    rfl

/-- The holder of the lock sends a body. -/
theorem effect_sendBody {s : State} {holder : Thread} {buffer : List UInt8} {r : ℕ}
    {rest : List ℕ} (hmutex : s.mutex = some ⟨holder, buffer, rest, some r⟩)
    (hone : (s.pending r).length ≤ 1) :
    Effect s { s.putBody buffer r with mutex := some ⟨holder, buffer, rest, none⟩ } := by
  have hloop : (s.mutex.map (Loop.pending r)).getD [] = [buffer] := by
    rw [hmutex, Option.map_some, Option.getD_some, Loop.pending, if_pos rfl]
  -- the socket has one half-sent message at most, and it is this one
  have hacceptor : s.acceptor.pending r = [] := by
    rw [State.pending, hloop, List.length_append, List.length_singleton] at hone
    exact List.eq_nil_of_length_eq_zero (by omega)
  have hsome : s.pending r = [buffer] := by
    rw [State.pending, hacceptor, hloop, List.nil_append]
  refine .body buffer r hsome rfl rfl ?_
  funext q
  by_cases hq : q = r
  · subst hq
    rw [Function.update_self, State.pending]
    simp only [Option.map_some, Option.getD_some, Loop.pending, reduceCtorEq, if_false,
      List.append_nil]
    exact hacceptor
  · have hne : ¬ (some r = some q) := fun heq => hq (Option.some.inj heq).symm
    rw [Function.update_of_ne hq, State.pending, State.pending, hmutex]
    simp only [Option.map_some, Option.getD_some, Loop.pending, if_neg hne, reduceCtorEq, if_false]
    rfl

/-- What a step does to the sockets, and that the messages that wait stay short. -/
theorem step_spec {s s' : State} {a : Action} (hs : Short s)
    (hone : ∀ r, (s.pending r).length ≤ 1) (hc : Clear s a) (h : step s a = some s') :
    Effect s s' ∧ Short s' := by
  cases a <;> simp only [step] at h
  case accept ipAddress sinPort =>
    split at h
    next hpc =>
      cases h
      refine ⟨?_, hs.loop, hs.msg⟩
      exact .of_eq rfl rfl (fun r => by rw [hpc]; rfl) fun _ => rfl
    · cases h
  case push =>
    split at h
    next g hpc hfree =>
      cases h
      refine ⟨?_, hs.loop, hs.msg⟩
      exact .of_eq rfl rfl (fun r => by rw [hpc]; rfl) fun _ => rfl
    · cases h
  case sendIDLength =>
    -- sent without the lock, so the holder of the lock can be half way too
    split at h
    next g hpc =>
      cases h
      refine ⟨effect_idLength hpc (hc.alone g.socket ?_), hs.loop, hs.msg⟩
      simp only [State.lengthTo, hpc]
    · cases h
  case sendIDBody =>
    split at h
    next g hpc =>
      cases h
      exact ⟨effect_idBody hpc (hone g.socket), hs.loop, hs.msg⟩
    · cases h
  case acceptNotify =>
    split at h
    next g hpc hfree =>
      cases h
      refine ⟨?_, ?_, hs.msg⟩
      · exact .of_eq rfl rfl (fun r => by rw [hpc]; rfl) fun r => by rw [hfree]; rfl
      · intro l hl
        cases hl
        exact hc.fits trivial
    · cases h
  case spawn =>
    split at h
    next g hpc =>
      cases h
      refine ⟨?_, hs.loop, locking_update hs.msg ?_⟩
      · exact .of_eq rfl rfl (fun r => by rw [hpc]; rfl) fun _ => rfl
      · intro msg hmsg
        cases hmsg
    · cases h
  case receive n body =>
    split at h
    · split at h
      next hlt =>
        split at h
        · cases h
          exact ⟨.of_eq rfl rfl (fun _ => rfl) fun _ => rfl, hs⟩
        next msg hmsg =>
          cases h
          refine ⟨.of_eq rfl rfl (fun _ => rfl) fun _ => rfl, hs.loop, locking_update hs.msg ?_⟩
          -- the sender is replaced, so the message is as long as what was read
          intro m hm
          obtain rfl := HandlerPoint.locking.inj hm
          have hbody := serializeMessage_deserializeMessage hmsg
          rw [← hbody] at hlt
          exact hlt
      · cases h
    · cases h
  case broadcast n =>
    split at h
    next msg hpc hfree =>
      cases h
      refine ⟨?_, ?_, locking_update hs.msg ?_⟩
      · exact .of_eq rfl rfl (fun _ => rfl) fun r => by rw [hfree]; rfl
      · intro l hl
        cases hl
        exact hs.msg n msg hpc
      · intro m hm
        cases hm
    · cases h
  case hangup n =>
    split at h
    · cases h
      refine ⟨.of_eq rfl rfl (fun _ => rfl) fun _ => rfl, hs.loop, locking_update hs.msg ?_⟩
      intro msg hmsg
      cases hmsg
    · cases h
  case erase n =>
    split at h
    · cases h
      refine ⟨.of_eq rfl rfl (fun _ => rfl) fun _ => rfl, hs.loop, locking_update hs.msg ?_⟩
      intro msg hmsg
      cases hmsg
    · cases h
  case exitNotify n =>
    split at h
    next hpc hfree =>
      cases h
      refine ⟨?_, ?_, locking_update hs.msg ?_⟩
      · exact .of_eq rfl rfl (fun _ => rfl) fun r => by rw [hfree]; rfl
      · intro l hl
        cases hl
        exact hc.fits trivial
      · intro msg hmsg
        cases hmsg
    · cases h
  case sendLength =>
    split at h
    next holder buffer r rest hmutex =>
      cases h
      have hlt := hs.loop _ hmutex
      refine ⟨effect_sendLength hmutex hlt (hc.alone r ?_), ?_, hs.msg⟩
      · simp only [State.lengthTo, hmutex]
      · intro l hl
        cases hl
        exact hlt
    · cases h
  case sendBody =>
    split at h
    next holder buffer rest r hmutex =>
      cases h
      have hlt := hs.loop _ hmutex
      refine ⟨effect_sendBody hmutex (hone r), ?_, hs.msg⟩
      intro l hl
      cases hl
      exact hlt
    · cases h
  case unlock =>
    split at h
    next holder buffer hmutex =>
      cases h
      exact ⟨effect_release holder (by rw [hmutex]; rfl), short_release hs holder⟩
    · cases h

/-! ## The invariant -/

/-- On every socket, the issued messages are there in order, whole; only of a
message that a thread is sending there is no more than the length. -/
structure Inv (s : State) : Prop where
  short : Short s
  one : ∀ r, (s.pending r).length ≤ 1
  issued : ∀ r, ∀ b ∈ s.issued r, b.length < 2 ^ 32
  wire : ∀ r, ∃ whole, s.issued r = whole ++ s.pending r ∧
    s.wire r = whole.flatMap frameBytes ++ (s.pending r).flatMap frameHeader

theorem inv_start : Inv State.start where
  short := short_start
  one := by
    intro r
    exact Nat.zero_le 1
  issued := by
    intro r b hb
    cases hb
  wire := fun _ => ⟨[], rfl, rfl⟩

theorem inv_step {s s' : State} {a : Action} (hs : Inv s) (hc : Clear s a)
    (h : step s a = some s') : Inv s' := by
  rcases step_spec hs.short hs.one hc h with ⟨heffect, hshort'⟩
  cases heffect with
  | quiet hwire hissued hpending =>
      constructor
      · exact hshort'
      · rw [hpending]
        exact hs.one
      · rw [hissued]
        exact hs.issued
      · rw [hwire, hissued, hpending]
        exact hs.wire
  | length b r hshort hnone hwire hissued hpending =>
      constructor
      · exact hshort'
      · intro q
        rw [hpending]
        by_cases hq : q = r
        · subst hq
          rw [Function.update_self]
          exact le_rfl
        · rw [Function.update_of_ne hq]
          exact hs.one q
      · intro q b' hb'
        rw [hissued] at hb'
        by_cases hq : q = r
        · subst hq
          rw [Function.update_self] at hb'
          rcases List.mem_append.1 hb' with hb' | hb'
          · exact hs.issued q b' hb'
          · rw [List.mem_singleton.1 hb']
            exact hshort
        · rw [Function.update_of_ne hq] at hb'
          exact hs.issued q b' hb'
      · intro q
        rw [hwire, hissued, hpending]
        by_cases hq : q = r
        · -- the socket had whole frames only, and now also this length
          subst hq
          rcases hs.wire q with ⟨whole, hwhole, hbytes⟩
          rw [hnone, List.append_nil] at hwhole
          rw [hnone, List.flatMap_nil, List.append_nil] at hbytes
          refine ⟨whole, ?_, ?_⟩
          · rw [Function.update_self, Function.update_self, hwhole]
          · rw [Function.update_self, Function.update_self, hbytes, List.flatMap_singleton]
        · rw [Function.update_of_ne hq, Function.update_of_ne hq, Function.update_of_ne hq]
          exact hs.wire q
  | body b r hsome hwire hissued hpending =>
      constructor
      · exact hshort'
      · intro q
        rw [hpending]
        by_cases hq : q = r
        · subst hq
          rw [Function.update_self]
          exact Nat.zero_le 1
        · rw [Function.update_of_ne hq]
          exact hs.one q
      · rw [hissued]
        exact hs.issued
      · intro q
        rw [hwire, hissued, hpending]
        by_cases hq : q = r
        · -- the body completes the frame that was begun
          subst hq
          rcases hs.wire q with ⟨whole, hwhole, hbytes⟩
          rw [hsome] at hwhole hbytes
          refine ⟨whole ++ [b], ?_, ?_⟩
          · rw [Function.update_self, hwhole, List.append_nil]
          · rw [Function.update_self, Function.update_self, hbytes, List.flatMap_singleton,
              List.flatMap_append, List.flatMap_singleton, List.flatMap_nil, List.append_nil,
              List.append_assoc, frameBytes]
        · rw [Function.update_of_ne hq, Function.update_of_ne hq]
          exact hs.wire q

/-- The invariant, in the words of the frames on one socket. -/
theorem Inv.framed {s : State} (hs : Inv s) (r : ℕ) : Framed (s.issued r) (s.wire r) := by
  rcases hs.wire r with ⟨whole, hwhole, hbytes⟩
  refine ⟨whole, (s.pending r).flatMap frameHeader, hbytes, ?_, ?_⟩
  · intro b hb
    have hmem : b ∈ s.issued r := hwhole ▸ List.mem_append_left _ hb
    exact ⟨hmem, hs.issued r b hmem⟩
  · match hp : s.pending r, hs.one r with
    -- nothing half sent: whole frames only
    | [], _ => exact Or.inl rfl
    | [b], _ =>
      have hmem : b ∈ s.issued r := by
        rw [hwhole, hp]
        exact List.mem_append_right _ (List.mem_singleton.2 rfl)
      refine Or.inr ⟨b, hmem, hs.issued r b hmem, ?_⟩
      rw [List.flatMap_singleton]
      exact List.prefix_append _ _

/-! ## Whole runs -/

/-- If every length is sent while no message on its socket is half sent, the
bytes of every socket are whole frames and at most one partly written frame. -/
theorem framed_of_clear {as : List Action} {s : State}
    (hrun : Run (Guarded (ofFn step) Clear) State.start as s) (r : ℕ) :
    Framed (s.issued r) (s.wire r) := by
  have hinv : Inv s :=
    hrun.invariant (fun _ _ _ h hs => inv_step hs h.2 h.1) inv_start
  exact hinv.framed r

/-- A client is accepted and gets its ID; the roster is about to be sent. -/
def joinSends : List Action :=
  [.accept localhost 0xF0D2, .push, .sendIDLength, .sendIDBody, .acceptNotify]

/-- The roster goes to the one client there is, and its thread starts. -/
def firstNotified : List Action := [.sendLength, .sendBody, .unlock, .spawn]

/-- Two clients join. The second one gets its ID and the roster. -/
theorem framed_of_clear_join : ∃ s, Run (Guarded (ofFn step) Clear) State.start
    (joinSends ++ firstNotified ++ joinSends ++ [.sendLength, .sendBody, .sendLength]) s ∧
    (s.issued 1).length = 2 ∧ Framed (s.issued 1) (s.wire 1) := by
  have hrun : Run (Guarded (ofFn step) Clear) State.start
      (joinSends ++ firstNotified ++ joinSends ++ [.sendLength, .sendBody, .sendLength]) _ :=
    run_of_isSome (by decide)
  exact ⟨_, hrun, by decide, framed_of_clear hrun 1⟩

/-! ## A client ID message cut in two -/

/-- What is framed begins with a frame, or is the beginning of one. -/
theorem Framed.begins {issued : List (List UInt8)} {wire : List UInt8} (h : Framed issued wire)
    (hne : wire ≠ []) : ∃ b ∈ issued, frameBytes b <+: wire ∨ wire <+: frameBytes b := by
  rcases h with ⟨whole, rest, hwire, hmem, hrest⟩
  cases whole with
  -- no whole frame: what there is belongs to the one that is begun
  | nil =>
      rw [List.flatMap_nil, List.nil_append] at hwire
      rcases hrest with hnil | ⟨b, hb, -, hpre⟩
      · exact absurd (hwire.trans hnil) hne
      · exact ⟨b, hb, Or.inr (hwire ▸ hpre)⟩
  | cons b whole =>
      refine ⟨b, (hmem b List.mem_cons_self).1, Or.inl ?_⟩
      rw [hwire, List.flatMap_cons, List.append_assoc]
      exact List.prefix_append _ _

/-- The first client is connected. The second one is registered and has got the
length of its client ID message when the first one's handler broadcasts. -/
def idSplit : List Action :=
  joinSends ++ firstNotified ++ [.accept localhost 0xF0D2, .push, .sendIDLength] ++
    [.receive 0 [2, 0, 7], .broadcast 0, .sendLength]

theorem id_message_split : ∃ s, Run (ofFn step) State.start idSplit s ∧
    s.wire 1 = [0, 0, 0, 2, 0, 0, 0, 3] ∧ ¬ Framed (s.issued 1) (s.wire 1) := by
  refine ⟨(exec step State.start idSplit).get (by decide), ?_, by decide, ?_⟩
  · exact run_of_exec (Option.some_get _).symm
  · intro hframed
    exact absurd (hframed.begins (by decide)) (by decide)

end HobbitSynchrony.Sends
