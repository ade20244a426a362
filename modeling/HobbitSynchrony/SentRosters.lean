import HobbitSynchrony.FrameStream
import HobbitSynchrony.SendRefinement

/-! # Rosters, from the bytes

What the clients know when the server is at rest, read off the bytes that the
threads of the server have written to the sockets, one `send` at a time. The
frames come from the refinement, the roster from the model of the frames.

* `Quiet`: no thread sends, and none still has to call `notifyClients`;
* `SendsGame`: the clients send events and snapshots only;
* `rosters_in_bytes`: every registered client that has read its socket knows the
  list of the server, and its own ID.
-/

namespace HobbitSynchrony.Sends

open Transition

/-- The acceptor owes no client ID message and no roster. -/
def AcceptPoint.Done : AcceptPoint → Prop
  | .accepting => True
  | .pushing _ => True
  | .spawning _ => True
  | _ => False

/-- The lock is free, and every change of `clients` has been announced. -/
structure Quiet (s : State) : Prop where
  mutex : s.mutex = none
  acceptor : s.acceptor.Done
  handler : ∀ n, s.handler n ≠ .lockingNotify

/-- Every body that is received is an event or a snapshot. -/
def SendsGame (a : Action) : Prop := ∀ n body, a = .receive n body → GameFrame body

/-! ## What rest means for the frames -/

theorem Quiet.notifyPending {s : State} {t : Net} (hs : Quiet s) (h : Refines s t) :
    ¬ t.NotifyPending := by
  rcases h with ⟨g, hsim, -⟩
  have hacceptor := hsim.acceptor
  rw [place_none hs.mutex] at hacceptor
  have hdone := hs.acceptor
  rintro (⟨new, hnew⟩ | ⟨n, hn⟩)
  · -- the acceptor would have an ID or a roster to send
    generalize s.acceptor = p at hacceptor hdone
    rcases hnew with hnew | hnew
    · rw [hnew] at hacceptor
      cases hacceptor
      exact hdone
    · rw [hnew] at hacceptor
      cases hacceptor <;> exact hdone
  · have hhandler := hsim.handler n
    have hlocking := hs.handler n
    rw [place_none hs.mutex, hn] at hhandler
    generalize s.handler n = p at hhandler hlocking
    cases hhandler
    exact hlocking rfl

/-- The abstract clients send what the concrete ones send. -/
theorem sendsGame_of_performs {a : Action} {bs : List HobbitSynchrony.Action}
    (h : Performs a bs) (ha : SendsGame a) : ∀ b ∈ bs, HobbitSynchrony.SendsGame b := by
  intro b hb n body hsend
  subst hsend
  -- only a received body is sent by an abstract client
  have hcommit {thread : Thread} : ¬ Commits thread (.clientSend n body) := fun hc => by cases hc
  cases h <;> simp at hb
  case receive n' body' => exact ha n body (by rw [hb.1, hb.2])
  case overtaken hc => exact absurd (hb ▸ hc) hcommit
  case commit hc => exact absurd (hb ▸ hc) hcommit

theorem sendsGame_flatten {as : List Action} {bss : List (List HobbitSynchrony.Action)}
    (h : List.Forall₂ Performs as bss) (has : ∀ a ∈ as, SendsGame a) :
    ∀ b ∈ bss.flatten, HobbitSynchrony.SendsGame b := by
  induction h with
  | nil => exact fun b hb => absurd hb List.not_mem_nil
  | cons ha _ ih =>
      intro b hb
      rcases List.mem_append.1 hb with hb | hb
      · exact sendsGame_of_performs ha (has _ List.mem_cons_self) b hb
      · exact ih (fun a ha => has a (List.mem_cons_of_mem _ ha)) b hb

/-! ## The bytes of a socket -/

/-- Bodies that are messages, put together to frames. -/
theorem exists_frames {bodies : List (List UInt8)}
    (h : ∀ b ∈ bodies, ∃ msg, b = serializeMessage msg) :
    ∃ msgs, bodies = msgs.map serializeMessage ∧ bodies.flatMap frameBytes = frames msgs := by
  induction bodies with
  | nil => exact ⟨[], rfl, rfl⟩
  | cons b bodies ih =>
      rcases h b List.mem_cons_self with ⟨msg, rfl⟩
      rcases ih fun b hb => h b (List.mem_cons_of_mem _ hb) with ⟨msgs, rfl, hframes⟩
      refine ⟨msg :: msgs, rfl, ?_⟩
      rw [List.flatMap_cons, hframes]
      rfl

/-- The invariants of the runs of the frames in which clients send game messages. -/
def GameInv (t : Net) : Prop := RosterInv t ∧ Sound t

theorem gameInv_start : GameInv Net.start := ⟨rosterInv_start, sound_start⟩

theorem gameInv_step {t t' : Net} {b : HobbitSynchrony.Action} (ht : GameInv t)
    (h : HobbitSynchrony.Step t b t') (hb : HobbitSynchrony.SendsGame b) : GameInv t' :=
  ⟨rosterInv_step ht.1 h hb, sound_step ht.2 h (ht.1.gameFrames.controlFree b)⟩

/-- At rest a connected client of the abstract server knows the list and its ID. -/
theorem settled_of_quiet {s : State} {t : Net} (hs : Quiet s) (h : Refines s t)
    (hinv : RosterInv t) (haccepts : s.accepts < 256) {ch : ClientHandler} (hch : ch ∈ s.clients) :
    (Client.receiveAll (s.issued ch.socket)
        { Client.new with isConnected := true }).connectedClientsInfo = rosterOf s.clients ∧
      (Client.receiveAll (s.issued ch.socket)
        { Client.new with isConnected := true }).clientID = ch.clientID := by
  have hpending := hs.notifyPending h
  have hissued := h.issued hs.mutex ch.socket
  rcases h with ⟨g, hsim, -⟩
  have hmem : ch ∈ t.clients := by
    rw [hsim.clients]
    exact hch
  have hlt := (hinv.wellFormed.registered ch hmem).1
  rcases hsim.undelivered ch.socket hlt with ⟨hreceived, hclient⟩
  have hsettled : (t.conn ch.socket).settled =
      Client.receiveAll (s.issued ch.socket) { Client.new with isConnected := true } := by
    rw [Connection.settled, hclient, hissued, Connection.stream, hreceived, List.nil_append]
  have hfew : t.accepts < 256 := by
    have heq := hsim.accepts
    omega
  have hcurrent := (hinv.current hfew).2 ch hmem (by rw [hclient])
  rw [← hsettled, ← hsim.clients]
  constructor
  · rcases hcurrent.roster with hnotify | hroster
    · exact absurd hnotify hpending
    · exact hroster
  · rcases hcurrent.identity with ⟨new, hnew, -⟩ | hidentity
    · exact absurd (.inl ⟨new, .inl hnew⟩) hpending
    · exact hidentity

/-! ## Whole runs -/

/-- The bytes on the socket of a registered client, at rest, are frames from
which it takes the server's list and its own ID, however `recv` splits the
bodies, and whatever events and snapshots are relayed in between. -/
theorem rosters_in_bytes {as : List Action} {s : State}
    (hrun : Run (Guarded (ofFn step) Clear) State.start as s) (hgame : ∀ a ∈ as, SendsGame a)
    (haccepts : s.accepts < 256) (hquiet : Quiet s) {ch : ClientHandler} (hch : ch ∈ s.clients) :
    ∃ msgs, s.wire ch.socket = frames msgs ∧ ∀ sp stale, WholeHeaders sp msgs →
      ∃ c, receiveLoop sp stale (fun c body => c.receiveBody body)
          { Client.new with isConnected := true } (s.wire ch.socket) = (c, .header) ∧
        c.connectedClientsInfo = rosterOf s.clients ∧ c.clientID = ch.clientID := by
  have hsends : Inv s := hrun.invariant (fun _ _ _ h hs => inv_step hs h.2 h.1) inv_start
  rcases refines_run (hrun.mono fun _ _ _ h => h.1) with ⟨bss, t, hb, hrun', hR, -⟩
  have hguarded := hrun'.guarded (C := fun _ b => HobbitSynchrony.SendsGame b)
    fun b hbs _ => sendsGame_flatten hb hgame b hbs
  rcases hguarded.invariant (fun _ _ _ h hs => gameInv_step hs h.1 h.2) gameInv_start with
    ⟨hinv, hsound⟩
  -- no client ID message is half sent, so the bytes are those of the issued messages
  have hpending : s.pending ch.socket = [] := by
    have hdone := hquiet.acceptor
    rw [State.pending, hquiet.mutex, Option.map_none, Option.getD_none, List.append_nil]
    generalize s.acceptor = p at hdone ⊢
    cases p with
    | idBody new => exact hdone.elim
    | _ => rfl
  have hwire := hsends.wire_pending ch.socket
  rw [hpending, List.flatten_nil, List.append_nil] at hwire
  have hbodies : ∀ b ∈ s.issued ch.socket, ∃ msg, b = serializeMessage msg := by
    intro b hmem
    rw [hR.issued hquiet.mutex] at hmem
    rcases List.mem_map.1 hmem with ⟨f, hf, rfl⟩
    have hlt : ch.socket < t.accepts := by
      rcases hR with ⟨g, hsim, -⟩
      exact (hinv.wellFormed.registered ch (by rw [hsim.clients]; exact hch)).1
    rcases hsound.genuine ch.socket hlt f hf with ⟨msg, hmsg, -⟩
    exact ⟨msg, hmsg⟩
  rcases exists_frames hbodies with ⟨msgs, hmsgs, hframes⟩
  have hsocket : s.wire ch.socket = frames msgs := hwire.trans hframes
  refine ⟨msgs, hsocket, fun sp stale hhead => ?_⟩
  have hshort : ∀ msg ∈ msgs, (serializeMessage msg).length < 2 ^ 32 := by
    intro msg hmsg
    refine hsends.issued ch.socket _ ?_
    rw [hmsgs]
    exact List.mem_map_of_mem hmsg
  refine ⟨_, ?_, settled_of_quiet hquiet hR hinv haccepts hch⟩
  rw [hsocket, receiveLoop_frames sp stale _ _ msgs hshort hhead, ← hmsgs]
  rfl

/-- Two clients join, and the first one's event reaches the second one while
`acceptClients` begins its client ID message. -/
def bytesRun : List Action :=
  overtakenID ++ [.acceptNotify, .sendLength, .sendBody, .sendLength, .sendBody, .unlock, .spawn]

/-- A thread that runs has an accepted socket. -/
theorem Refines.lt_accepts {s : State} {t : Net} (h : Refines s t) (hw : t.WellFormed) {n : ℕ}
    (hn : s.handler n ≠ .absent) : n < s.accepts := by
  rcases h with ⟨g, hsim, -⟩
  have hlt := hsim.lt_accepts hw hn
  have heq := hsim.accepts
  omega

theorem rosters_in_bytes_run : ∃ s, Run (Guarded (ofFn step) Clear) State.start bytesRun s ∧
    s.clients.length = 2 ∧ ∀ ch ∈ s.clients,
    ∃ msgs, s.wire ch.socket = frames msgs ∧ ∀ sp stale, WholeHeaders sp msgs →
      ∃ c, receiveLoop sp stale (fun c body => c.receiveBody body)
          { Client.new with isConnected := true } (s.wire ch.socket) = (c, .header) ∧
        c.connectedClientsInfo = rosterOf s.clients ∧ c.clientID = ch.clientID := by
  have hrun : Run (Guarded (ofFn step) Clear) State.start bytesRun _ :=
    run_of_isSome (by decide)
  refine ⟨_, hrun, by decide, fun ch hch => rosters_in_bytes hrun ?game (by decide) ?quiet hch⟩
  case game =>
    intro a ha n body hsend
    subst hsend
    have hbody : n = 0 ∧ body = [2, 0, 7] := by
      simpa [bytesRun, overtakenID, joinSends, firstNotified] using ha
    exact ⟨⟨2, 0, [7]⟩, by rw [hbody.2]; rfl, .inl rfl⟩
  case quiet =>
    refine ⟨by rfl, trivial, fun n hn => ?_⟩
    -- the two threads receive, and no other one runs
    rcases refines_run (hrun.mono fun _ _ _ h => h.1) with ⟨_, t, -, -, hR, hw⟩
    have hlt := hR.lt_accepts hw (n := n) (by rw [hn]; simp)
    obtain rfl | rfl : n = 0 ∨ n = 1 := by
      have htwo : n < 2 := hlt
      omega
    · cases hn
    · cases hn

end HobbitSynchrony.Sends
