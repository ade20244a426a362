import HobbitSynchrony.Lib.Run

/-! # The connections of a client

`Client::connectToServer`, `Client::stop` and the receive threads in
`ServerClient/Client.cpp`. A receive thread is detached as soon as it is made;
`disconnect` asks whether it is joinable to decide what to close.

* `ClientSessions`, `step`: the sockets and the receive threads, with the calls
  and the turns of the threads in any order;
* `closed_eq_nil`: no socket is ever closed;
* `released_iff`: in which runs the connections are released.
-/

namespace HobbitSynchrony

open Transition

/-- Where a receive thread is: at the condition of the loop, in `recv` of a
length or of a body from a socket, in `notifyServerDown`, behind the loop, or
gone. -/
inductive ReceivePoint where
  | test
  | length (socket : Option ℕ)
  | body (socket : Option ℕ)
  | notifying (socket : Option ℕ)
  | leaving
  | gone
deriving DecidableEq, Repr

/-- The thread is in `recv` on this socket. -/
def ReceivePoint.readsFrom (socket : Option ℕ) : ReceivePoint → Bool
  | .length socket' => socket' = socket
  | .body socket' => socket' = socket
  | _ => false

/-- What a turn of a thread brings: nothing to choose, bytes and another `recv`,
a whole message (with the IDs, if it is a client list), or a `recv` that returns
0 or an error. -/
inductive Turn where
  | go
  | more
  | message (clientIDs : Option (List UInt8))
  | lost
deriving DecidableEq, Repr

/-- What the connections of a `Client` are made of; `none` is the invalid
socket. `connecting` is the point of `connectToServer` between `socket` and
`connect`. As history: the sockets opened and closed, and the socket of the
last connection. -/
structure ClientSessions where
  serverSocket : Option ℕ
  isConnected : Bool
  joinable : Bool
  connecting : Bool
  threads : List ReceivePoint
  opened : ℕ
  closed : List ℕ
  connection : Option ℕ
deriving DecidableEq, Repr

namespace ClientSessions

/-- `Client()`. -/
def new : ClientSessions where
  serverSocket := none
  isConnected := false
  joinable := false
  connecting := false
  threads := []
  opened := 0
  closed := []
  connection := none

/-- `disconnect`. -/
def disconnect (s : ClientSessions) : ClientSessions :=
  let s := { s with isConnected := false }
  if s.joinable then
    { s with joinable := false, closed := s.closed ++ s.serverSocket.toList }
  else s

/-- `connectToServer` as far as `socket`. -/
def openSocket (valid : Bool) (s : ClientSessions) : ClientSessions :=
  if valid then
    { s with serverSocket := some s.opened, opened := s.opened + 1, connecting := true }
  else { s with serverSocket := none }

/-- The rest of `connectToServer`. -/
def connect (success : Bool) (s : ClientSessions) : ClientSessions :=
  if success then
    { s with
      isConnected := true
      connecting := false
      threads := s.threads ++ [.test]
      connection := s.serverSocket
      -- the new thread is detached at once
      joinable := false }
  else { s with connecting := false }

/-- A turn of a receive thread in `receiveMessages`. -/
def receiveTurn (s : ClientSessions) : ReceivePoint → Turn → Option (ClientSessions × ReceivePoint)
  | .test, .go => some (s, if s.isConnected then .length s.serverSocket else .leaving)
  -- every `recv` reads the member `serverSocket` again
  | .length _, .more => some (s, .body s.serverSocket)
  | .body _, .more => some (s, .body s.serverSocket)
  -- a length of 0 has no body, and no message
  | .length _, .message none => some (s, .test)
  | .body _, .message _ => some (s, .test)
  -- only at a length the loss is reported
  | .length socket, .lost => some ({ s with isConnected := false }, .notifying socket)
  | .body _, .lost => some (s, .leaving)
  | .notifying _, .go => some (s, .leaving)
  | .leaving, .go => some (s.disconnect, .gone)
  | _, _ => none

/-- The calls on the one side, the turns of the threads on the other. -/
inductive Action where
  | openSocket (valid : Bool)
  | connect (success : Bool)
  | stop
  | thread (i : ℕ) (turn : Turn)
deriving DecidableEq, Repr

def stepFn (s : ClientSessions) : Action → Option ClientSessions
  | .openSocket valid => if s.connecting then none else some (s.openSocket valid)
  | .connect success => if s.connecting then some (s.connect success) else none
  | .stop => some s.disconnect
  | .thread i turn => do
    let point ← s.threads[i]?
    let (s', point') ← s.receiveTurn point turn
    return { s' with threads := s.threads.set i point' }

def step : ClientSessions → Action → ClientSessions → Prop := ofFn stepFn

/-! ## What a step does -/

theorem disconnect_of_not_joinable {s : ClientSessions} (h : s.joinable = false) :
    s.disconnect = { s with isConnected := false } := by
  unfold disconnect
  simp [h]

/-- A turn of a thread moves that thread, and can only clear the flag. -/
theorem receiveTurn_cases {s s' : ClientSessions} {point point' : ReceivePoint} {turn : Turn}
    (hj : s.joinable = false) (h : s.receiveTurn point turn = some (s', point')) :
    s' = s ∨ s' = { s with isConnected := false } := by
  unfold receiveTurn at h
  split at h
  case h_9 =>
    obtain ⟨rfl, -⟩ := Prod.mk.inj (Option.some.inj h)
    exact .inr (disconnect_of_not_joinable hj)
  case h_10 => cases h
  case h_6 =>
    obtain ⟨rfl, -⟩ := Prod.mk.inj (Option.some.inj h)
    exact .inr rfl
  all_goals
    obtain ⟨rfl, -⟩ := Prod.mk.inj (Option.some.inj h)
    exact .inl rfl

theorem thread_cases {s s' : ClientSessions} {i : ℕ} {turn : Turn} (hj : s.joinable = false)
    (h : step s (.thread i turn) s') :
    ∃ point', s' = { s with threads := s.threads.set i point' } ∨
      s' = { s with threads := s.threads.set i point', isConnected := false } := by
  unfold step ofFn stepFn at h
  simp only [Option.bind_eq_bind, Option.bind_eq_some_iff] at h
  rcases h with ⟨point, -, ⟨t, point'⟩, hturn, ht⟩
  cases ht
  refine ⟨point', ?_⟩
  rcases receiveTurn_cases hj hturn with rfl | rfl
  · exact .inl rfl
  · exact .inr rfl

/-- No thread is joinable, so no socket is closed. -/
theorem step_closed {s s' : ClientSessions} {a : Action} (h : step s a s')
    (hs : s.joinable = false ∧ s.closed = []) : s'.joinable = false ∧ s'.closed = [] := by
  cases a with
  | openSocket valid =>
      unfold step ofFn stepFn openSocket at h
      dsimp only at h
      split at h
      · cases h
      · cases h
        split <;> exact hs
  | connect success =>
      unfold step ofFn stepFn connect at h
      dsimp only at h
      split at h
      · cases h
        split
        · exact ⟨rfl, hs.2⟩
        · exact hs
      · cases h
  | stop =>
      cases h
      rw [disconnect_of_not_joinable hs.1]
      exact hs
  | thread i turn =>
      rcases thread_cases hs.1 h with ⟨point', rfl | rfl⟩
      · exact hs
      · exact hs

/-- No run closes a socket. -/
theorem closed_eq_nil {s : ClientSessions} {as : List Action} (h : Run step new as s) :
    s.closed = [] := by
  have hinv : s.joinable = false ∧ s.closed = [] :=
    h.invariant (fun _ _ _ hs hinv => step_closed hs hinv) ⟨rfl, rfl⟩
  exact hinv.2

/-! ## When the connections are released -/

/-- What a step should leave behind: the socket of the connection that `stop`
has ended is closed, at most one thread reads from the current socket, and at
most one socket is open. -/
structure Released (s : ClientSessions) (a : Action) (s' : ClientSessions) : Prop where
  stopped : a = .stop → s.isConnected = true → ∀ socket, s.connection = some socket →
    socket ∈ s'.closed
  oneReader : s'.threads.countP (ReceivePoint.readsFrom s'.serverSocket) ≤ 1
  oneOpen : s'.opened ≤ s'.closed.length + 1

/-- The only socket is opened here, and no connection is stopped. -/
def OneSession (s : ClientSessions) (a : Action) (_ : ClientSessions) : Prop :=
  (a = .openSocket true → s.opened = 0) ∧ (a = .stop → s.isConnected = false)

/-- What holds as long as there is only one session. -/
structure Inv (s : ClientSessions) : Prop where
  joinable : s.joinable = false
  closed : s.closed = []
  opened : s.opened ≤ 1
  threads : s.threads.length ≤ s.opened
  connecting : s.connecting = true → s.threads.length < s.opened ∧ s.serverSocket ≠ none
  connected : s.isConnected = true → s.connection ≠ none

theorem inv_new : Inv new where
  joinable := rfl
  closed := rfl
  opened := Nat.zero_le _
  threads := Nat.le_refl _
  connecting := fun h => by cases h
  connected := fun h => by cases h

theorem inv_step {s s' : ClientSessions} {a : Action} (hs : Inv s) (h : step s a s')
    (ha : OneSession s a s') : Inv s' := by
  have hclosed := step_closed h ⟨hs.joinable, hs.closed⟩
  cases a with
  | openSocket valid =>
      unfold step ofFn stepFn at h
      dsimp only at h
      split at h
      · cases h
      next hidle =>
        cases h
        cases valid with
        | false => exact { hs with connecting := fun hc => absurd hc hidle }
        | true =>
            have hfirst : s.opened = 0 := ha.1 rfl
            have hnone : s.threads.length = 0 := by
              have := hs.threads
              omega
            constructor
            case joinable => exact hs.joinable
            case closed => exact hs.closed
            case connected => exact hs.connected
            all_goals simp [openSocket, hfirst, hnone]
  | connect success =>
      unfold step ofFn stepFn at h
      dsimp only at h
      split at h
      next hbusy =>
        cases h
        have hroom := hs.connecting hbusy
        cases success with
        | false => exact { hs with connecting := fun hc => by cases hc }
        | true =>
            constructor
            case joinable => exact rfl
            case closed => exact hs.closed
            case opened => exact hs.opened
            case threads =>
              simp only [connect, if_true, List.length_append, List.length_singleton]
              exact hroom.1
            case connecting => exact fun hc => by cases hc
            case connected => exact fun _ => hroom.2
      · cases h
  | stop =>
      cases h
      rw [disconnect_of_not_joinable hs.joinable]
      exact { hs with connected := fun hc => by cases hc }
  | thread i turn =>
      rcases thread_cases hs.joinable h with ⟨point', rfl | rfl⟩
      · exact { hs with
          threads := by simpa using hs.threads
          connecting := by simpa using hs.connecting }
      · exact { hs with
          threads := by simpa using hs.threads
          connecting := by simpa using hs.connecting
          connected := fun hc => by cases hc }

/-- As long as there has been only one session, a step keeps it so exactly when
it leaves everything released. -/
theorem oneSession_step_iff {s s' : ClientSessions} {a : Action} (hs : Inv s) (h : step s a s') :
    OneSession s a s' ↔ Released s a s' := by
  have hclosed := (step_closed h ⟨hs.joinable, hs.closed⟩).2
  constructor
  · intro ha
    have hs' := inv_step hs h ha
    constructor
    case stopped =>
      rintro rfl hconnected
      rw [ha.2 rfl] at hconnected
      cases hconnected
    case oneReader =>
      have hcount := List.countP_le_length (p := ReceivePoint.readsFrom s'.serverSocket)
        (l := s'.threads)
      have hthreads := hs'.threads
      have hopened := hs'.opened
      omega
    case oneOpen =>
      rw [hclosed]
      exact hs'.opened
  · intro hreleased
    constructor
    · rintro rfl
      -- one socket more than before, and none is closed
      have hopened := hreleased.oneOpen
      rw [hclosed] at hopened
      unfold step ofFn stepFn at h
      dsimp only at h
      split at h
      · cases h
      · cases h
        have hone : s.opened + 1 ≤ 1 := hopened
        omega
    · rintro rfl
      rw [← Bool.not_eq_true]
      intro hconnected
      rcases Option.ne_none_iff_exists'.1 (hs.connected hconnected) with ⟨socket, hsocket⟩
      have hmem := hreleased.stopped rfl hconnected socket hsocket
      rw [hclosed] at hmem
      cases hmem

/-- The connections are released all along a run exactly if it opens one
socket at most, and never stops a connection. -/
theorem released_iff (as : List Action) :
    EveryStep step new as OneSession ↔ EveryStep step new as Released :=
  everyStep_iff Inv OneSession Released inv_new (fun _ _ _ hs h ha => inv_step hs h ha)
    (fun _ _ _ hs h => oneSession_step_iff hs h)

/-! ## Runs that release nothing -/

/-- A client that connects and is stopped leaves its socket open. -/
theorem stopped_socket_open :
    ¬ EveryStep step new [.openSocket true, .connect true, .stop] Released := by
  intro hall
  have hrun : Run step new [.openSocket true, .connect true] _ := run_of_exec rfl
  have hstop := hall _ .stop _ _ (List.prefix_refl _) hrun rfl
  have hmem := hstop.stopped rfl rfl 0 rfl
  cases hmem

end ClientSessions

end HobbitSynchrony
