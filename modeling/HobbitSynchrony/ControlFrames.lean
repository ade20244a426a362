import HobbitSynchrony.Traffic

/-! # Control frames

A client takes its identity from client ID messages and its roster from client
list messages, whoever sent them, and the server relays messages of every
type. So a peer can set both for everybody else.

* `ControlFree`: a step that relays no such message to another client;
* `Genuine`: the frames the server has good reason to send;
* `genuine_step`, `trusted_step`: what a control-free step preserves;
* `identity_and_roster_genuine`: over control-free runs, the identity and the
  roster of every client come from the server;
* `identity_forged`: a run in which they do not.
-/

namespace HobbitSynchrony

open Transition

/-- A message that a client takes its identity or its roster from. -/
def IsControl (msg : BaseMessage UInt8) : Prop :=
  msg.messageType = clientListMessage ∨ msg.messageType = clientIDMessage

instance (msg : BaseMessage UInt8) : Decidable (IsControl msg) :=
  inferInstanceAs (Decidable (_ ∨ _))

/-- The step does not relay a control message to a client with another ID than
the sender's. -/
def ControlFree (s : Net) (a : Action) : Prop :=
  match a with
  | .broadcast n => ∀ msg, (s.conn n).handler = .broadcasting msg → IsControl msg →
      ∀ h ∈ s.clients, h.clientID = (s.conn n).clientHandler.clientID
  | _ => True

/-- The step relays a message. -/
def Action.relays : Action → Bool
  | .broadcast _ => true
  | _ => false

theorem controlFree_of_relays (s : Net) {a : Action} (h : a.relays = false) : ControlFree s a := by
  cases a with
  | broadcast n => cases h
  | _ => trivial

/-- A frame on socket `n` that carries no control message, or a roster that
`notifyClients` built, or the ID the server assigned. -/
def Genuine (s : Net) (n : ℕ) (frame : Frame) : Prop :=
  ∃ msg, frame.body = serializeMessage msg ∧
    (¬ IsControl msg ∨ (∃ clients ∈ s.rosters, msg = rosterMessage clients) ∨
      msg = idMessage (s.conn n).clientHandler.clientID)

/-- The client has received the server's own client ID frame. -/
def Connection.Identified (c : Connection) : Prop :=
  ∃ frame ∈ c.received, frame.relayed = false ∧
    ∃ msg, frame.body = serializeMessage msg ∧ msg.messageType = clientIDMessage

/-- Where the identity and the roster of the client behind socket `n` come from. -/
structure Trusted (s : Net) (n : ℕ) : Prop where
  identity : (s.conn n).Identified →
    (s.conn n).client.clientID = (s.conn n).clientHandler.clientID
  roster : (s.conn n).client.connectedClientsInfo = (fun _ => none) ∨
    ∃ clients ∈ s.rosters,
      (s.conn n).client.connectedClientsInfo = Client.rosterOfData (clientListData clients)

/-! ## The frames that are sent -/

theorem isControl_rosterMessage (clients : List ClientHandler) :
    IsControl (rosterMessage clients) := .inl rfl

theorem isControl_idMessage (clientID : UInt8) : IsControl (idMessage clientID) := .inr rfl

/-- Whether a frame is genuine depends on the assigned ID and the lists sent so far. -/
theorem Genuine.mono {s s' : Net} {n : ℕ} {frame : Frame} (h : Genuine s n frame)
    (hid : (s'.conn n).clientHandler = (s.conn n).clientHandler) (hros : s.rosters ⊆ s'.rosters) :
    Genuine s' n frame := by
  rcases h with ⟨msg, hbody, hmsg⟩
  refine ⟨msg, hbody, ?_⟩
  rcases hmsg with hctl | ⟨clients, hmem, rfl⟩ | rfl
  · exact .inl hctl
  · exact .inr (.inl ⟨clients, hros hmem, rfl⟩)
  · exact .inr (.inr (by rw [hid]))

/-- The frames a control-free step sends are genuine. -/
theorem genuine_of_sends {s s' : Net} {a : Action} (hs : s.WellFormed) (h : Step s a s')
    (hc : ControlFree s a) {n : ℕ} (hn : n < s.accepts) {frame : Frame}
    (hsend : Sends s n a frame) : Genuine s' n frame := by
  have hkeep := h.clientHandler hn
  cases hsend with
  -- the acceptor sends the ID of the handler it has just made
  | id g ha hpc hgn =>
      refine ⟨idMessage g.clientID, rfl, .inr (.inr ?_)⟩
      have hconn := (hs.acceptor g (by rw [hpc]; rfl)).2.1
      rw [hgn] at hconn
      rw [hkeep, hconn]
  | roster g ha hmem hgn =>
      exact ⟨rosterMessage s.clients, rfl, .inr (.inl ⟨s.clients, h.rosters.2 ha, rfl⟩)⟩
  -- the receiver has another ID, so the message is no control message
  | relay m msg g ha hpc hmem hgn hid =>
      refine ⟨msg, rfl, .inl ?_⟩
      intro hctl
      subst ha
      exact hid (hc msg hpc hctl g hmem)

/-! ## What the clients make of them -/

/-- A genuine frame leaves a client with a trusted identity and roster. -/
theorem trusted_receive {s : Net} {n : ℕ} {c : Connection} {frame : Frame}
    (hframe : Genuine s n frame) (hhandler : (s.conn n).clientHandler = c.clientHandler)
    (hclient : (s.conn n).client = c.client.receiveBody frame.body)
    (hreceived : (s.conn n).received = c.received ++ [frame])
    (hid : c.Identified → c.client.clientID = c.clientHandler.clientID)
    (hroster : c.client.connectedClientsInfo = (fun _ => none) ∨ ∃ clients ∈ s.rosters,
      c.client.connectedClientsInfo = Client.rosterOfData (clientListData clients)) :
    Trusted s n := by
  rcases hframe with ⟨msg, hbody, hmsg⟩
  constructor
  case identity =>
    rintro ⟨f, hf, hrel, m, hm, htype⟩
    rw [hclient, hbody, Client.clientID_receiveBody, hhandler]
    split
    next hnew =>
      -- the frame is a client ID message, so it is the server's
      rcases hmsg with hctl | ⟨clients, -, rfl⟩ | rfl
      · exact absurd (.inr hnew) hctl
      · exact absurd (show clientListMessage = clientIDMessage from hnew) (by decide)
      · rw [hhandler]
        rfl
    next hold =>
      -- the server's client ID message has come before
      apply hid
      rw [hreceived] at hf
      rcases List.mem_append.1 hf with hf | hf
      · exact ⟨f, hf, hrel, m, hm, htype⟩
      · obtain rfl := List.mem_singleton.1 hf
        have heq : msg = m := by
          have := congrArg deserializeMessage (hbody.symm.trans hm)
          simpa using this
        exact absurd (heq ▸ htype) hold
  case roster =>
    rw [hclient, hbody, Client.connectedClientsInfo_receiveBody]
    split
    next hlist =>
      rcases hmsg with hctl | ⟨clients, hmem, rfl⟩ | rfl
      · exact absurd (.inl hlist) hctl
      · exact .inr ⟨clients, hmem, rfl⟩
      · exact absurd (show clientIDMessage = clientListMessage from hlist) (by decide)
    next => exact hroster

/-- The invariant of control-free runs. -/
structure Sound (s : Net) : Prop where
  wellFormed : s.WellFormed
  genuine : ∀ n < s.accepts, ∀ frame ∈ (s.conn n).stream, Genuine s n frame
  trusted : ∀ n < s.accepts, Trusted s n

theorem sound_start : Sound Net.start where
  wellFormed := Net.wellFormed_start
  genuine := fun n hn => absurd hn (Nat.not_lt_zero n)
  trusted := fun n hn => absurd hn (Nat.not_lt_zero n)

theorem roster_mono {s s' : Net} (hros : s.rosters ⊆ s'.rosters)
    {infos : UInt8 → Option ClientInfo}
    (h : infos = (fun _ => none) ∨ ∃ clients ∈ s.rosters,
      infos = Client.rosterOfData (clientListData clients)) :
    infos = (fun _ => none) ∨ ∃ clients ∈ s'.rosters,
      infos = Client.rosterOfData (clientListData clients) := by
  rcases h with hnone | ⟨clients, hmem, heq⟩
  · exact .inl hnone
  · exact .inr ⟨clients, hros hmem, heq⟩

theorem genuine_step {s s' : Net} {a : Action} (hs : Sound s) (h : Step s a s')
    (hc : ControlFree s a) {n : ℕ} (hn : n < s'.accepts) {frame : Frame}
    (hframe : frame ∈ (s'.conn n).stream) : Genuine s' n frame := by
  rcases h.open_cases hn with hlt | ⟨-, g, prev, hnew, -⟩
  · -- frames that were there stay genuine, and the step adds genuine ones
    have hold : ∀ f ∈ (s.conn n).stream, Genuine s' n f :=
      fun f hf => (hs.genuine n hlt f hf).mono (h.clientHandler hlt) h.rosters.1
    unfold Connection.stream at hframe hold
    cases h.traffic hlt with
    | sent frames hsends hclient hflight hreceived =>
        rw [hflight, hreceived, ← List.append_assoc] at hframe
        rcases List.mem_append.1 hframe with hf | hf
        · exact hold frame hf
        · exact genuine_of_sends hs.wellFormed h hc hlt (hsends frame hf)
    | delivered f rest hf hclient hflight hreceived =>
        apply hold
        rw [hflight, hreceived] at hframe
        rw [hf]
        simpa using hframe
    | lost hclient hflight hreceived =>
        rw [hflight, hreceived] at hframe
        exact hold frame hframe
  · rw [hnew] at hframe
    exact absurd hframe List.not_mem_nil

theorem trusted_step {s s' : Net} {a : Action} (hs : Sound s) (h : Step s a s') {n : ℕ}
    (hn : n < s'.accepts) : Trusted s' n := by
  rcases h.open_cases hn with hlt | ⟨-, g, prev, hnew, hprev⟩
  · have ht := hs.trusted n hlt
    have hkeep := h.clientHandler hlt
    have hroster := roster_mono h.rosters.1 ht.roster
    cases h.traffic hlt with
    | sent frames hsends hclient hflight hreceived =>
        constructor
        · rw [Connection.Identified, hreceived, hclient, hkeep]
          exact ht.identity
        · rw [hclient]
          exact hroster
    | delivered f rest hf hclient hflight hreceived =>
        -- the frame was in the stream, so it is genuine
        have hmem : f ∈ (s.conn n).stream := by simp [Connection.stream, hf]
        exact trusted_receive ((hs.genuine n hlt f hmem).mono hkeep h.rosters.1) hkeep hclient
          hreceived ht.identity hroster
    | lost hclient hflight hreceived =>
        constructor
        · rw [Connection.Identified, hreceived, hclient, hkeep]
          exact ht.identity
        · rw [hclient]
          exact .inl rfl
  · -- a new connection: its client is new, or has the roster it had before
    constructor
    · rw [hnew]
      rintro ⟨f, hf, -⟩
      exact absurd hf List.not_mem_nil
    · rw [hnew]
      cases prev with
      | none => exact .inl rfl
      | some p => exact roster_mono h.rosters.1 (hs.trusted p (hprev p rfl)).roster

theorem sound_step {s s' : Net} {a : Action} (hs : Sound s) (h : Step s a s')
    (hc : ControlFree s a) : Sound s' where
  wellFormed := hs.wellFormed.step h
  genuine := fun _ hn _ hframe => genuine_step hs h hc hn hframe
  trusted := fun _ hn => trusted_step hs h hn

/-! ## Whole runs -/

/-- If no step relays a control message to another client, every client's
identity, once the server has sent it, is the assigned one, and its roster is
empty or one that `notifyClients` built. -/
theorem identity_and_roster_genuine {as : List Action} {s : Net}
    (hrun : Run (Guarded Step ControlFree) Net.start as s) :
    ∀ n < s.accepts, Trusted s n := by
  have hsound : Sound s :=
    hrun.invariant (fun _ _ _ h hs => sound_step hs h.1 h.2) sound_start
  exact hsound.trusted

/-- Two clients join and the first relays an event to the second. -/
theorem identity_and_roster_genuine_event : ∃ s, Run (Guarded Step ControlFree) Net.start
    (joins 2 ++ [.clientSend 0 [2, 0, 7], .read 0] ++ [.broadcast 0] ++
      [.deliver 1, .deliver 1, .deliver 1]) s ∧ Trusted s 1 := by
  have hbefore : Run (Guarded Step ControlFree) Net.start
      (joins 2 ++ [.clientSend 0 [2, 0, 7], .read 0]) _ :=
    (Net.run_of_isSome (by decide)).guarded fun a ha s => controlFree_of_relays s (a := a) (by
      revert a
      decide)
  have hbroadcast : Run (Guarded Step ControlFree) _ [.broadcast 0] _ :=
    Run.single ⟨.broadcast ((exec Net.next Net.start
      (joins 2 ++ [.clientSend 0 [2, 0, 7], .read 0])).get (by decide)) 0 ⟨2, 1, [7]⟩ rfl, by
        -- the only relayed message is an event
        intro msg hpc hctl
        obtain rfl := HandlerPoint.broadcasting.inj hpc
        exact absurd hctl (by decide)⟩
  have hafter : Run (Guarded Step ControlFree) _ [.deliver 1, .deliver 1, .deliver 1] _ :=
    (Net.run_of_isSome (s := (exec Net.next Net.start
      (joins 2 ++ [.clientSend 0 [2, 0, 7], .read 0, .broadcast 0])).get (by decide))
        (by decide)).guarded fun a ha s => controlFree_of_relays s (a := a) (by
          revert a
          decide)
  have hrun := (hbefore.append hbroadcast).append hafter
  exact ⟨_, hrun, identity_and_roster_genuine hrun 1 (by decide)⟩

/-- A client that sends a client ID message gives the other its own ID. -/
theorem identity_forged : ∃ s, Run Step Net.start
    (joins 2 ++ [.clientSend 0 [5, 0], .read 0, .broadcast 0, .deliver 1, .deliver 1,
      .deliver 1]) s ∧
    (s.conn 1).Identified ∧ (s.conn 1).clientHandler.clientID = 2 ∧
    (s.conn 1).client.clientID = 1 := by
  refine ⟨_, Net.run_of_isSome (by decide), ⟨_, List.mem_cons_self, ?_⟩, rfl, rfl⟩
  exact ⟨rfl, idMessage 2, rfl, rfl⟩

end HobbitSynchrony
