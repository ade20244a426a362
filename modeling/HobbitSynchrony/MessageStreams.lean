import HobbitSynchrony.Relay
import HobbitSynchrony.SentMessages

/-! # What one client has on its way to another

As long as nobody joins or leaves, what a client sends passes its handler thread
and the socket of every other client in the order in which it was sent, whatever
the others send in between.

* `Serving`: the invariant of the server, with fewer than 256 accepts;
* `Action.Calm`: the steps while nobody joins or leaves;
* `Net.Quiet`: nothing of the server itself is on its way to a client;
* `Net.onTheWay`: what client `n` has sent and client `r` has not got yet;
* `StreamStep`, `streamStep`: a calm step puts something at the end of it, or takes
  its first part, or leaves it alone.
-/

namespace HobbitSynchrony

/-! ## The server, with distinct IDs -/

/-- What is known of every state with fewer than 256 accepts. -/
structure Serving (s : Net) : Prop where
  wellFormed : s.WellFormed
  registered : s.Registered
  few : s.accepts < 256
  stamped : ∀ n msg, (s.conn n).handler = .broadcasting msg →
    msg.senderID = (s.conn n).clientHandler.clientID

theorem serving_start : Serving Net.start where
  wellFormed := Net.wellFormed_start
  registered := Net.registered_start
  few := by decide
  stamped := nofun

/-- Two connections have different IDs. -/
theorem Serving.clientID_ne {s : Net} (hs : Serving s) {n m : ℕ} (hn : n < s.accepts)
    (hm : m < s.accepts) (hnm : n ≠ m) :
    (s.conn n).clientHandler.clientID ≠ (s.conn m).clientHandler.clientID := by
  have hfew := hs.few
  rw [hs.wellFormed.clientID n hn, hs.wellFormed.clientID m hm]
  intro heq
  rw [ofNat_eq_ofNat_iff] at heq
  omega

theorem Serving.distinct {s : Net} (hs : Serving s) : s.DistinctIDs := by
  refine List.Nodup.map_on ?_ (hs.wellFormed.sockets.of_map _)
  intro g hg h hh hid
  rcases hs.wellFormed.registered g hg with ⟨hgn, hgconn⟩
  rcases hs.wellFormed.registered h hh with ⟨hhn, hhconn⟩
  by_contra hne
  have hsocket : g.socket ≠ h.socket := by
    intro heq
    rw [heq, hhconn] at hgconn
    exact hne hgconn.symm
  apply hs.clientID_ne hgn hhn hsocket
  rw [hgconn, hhconn]
  exact hid

theorem Serving.step {s s' : Net} {a : Action} (hs : Serving s) (h : Step s a s')
    (hfew : s'.accepts < 256) : Serving s' where
  wellFormed := hs.wellFormed.step h
  registered := hs.registered.step hs.wellFormed hs.distinct h
  few := hfew
  stamped := by
    intro n msg hpc
    have hn : n < s'.accepts := (hs.wellFormed.step h).lt_accepts (by rw [hpc]; simp)
    have hold : n < s.accepts := by
      rcases h.open_cases hn with hlt | ⟨-, g, prev, hnew, -⟩
      · exact hlt
      · rw [hnew] at hpc
        cases hpc
    rw [h.clientHandler hold]
    rcases broadcasting_step h hpc with hbefore | ⟨body, -, m, -, rfl⟩
    · exact hs.stamped n msg hbefore
    · rfl

/-- The program behind a socket goes on. -/
theorem Serving.withClient {s : Net} (hs : Serving s) (n : ℕ) (c : Client) :
    Serving (s.modify n fun conn => { conn with client := c }) := by
  have hhandler : ∀ m, ((s.modify n fun conn => { conn with client := c }).conn m).handler =
      (s.conn m).handler := by
    intro m
    by_cases hm : m = n
    · subst hm
      rw [Net.conn_modify, Function.update_self]
    · rw [Net.conn_modify, Function.update_of_ne hm]
  have hclient := s.clientHandler_modify (n := n) (f := fun conn => { conn with client := c }) rfl
  refine ⟨?wellFormed, ?registered, hs.few, ?stamped⟩
  case wellFormed =>
    refine hs.wellFormed.congr rfl rfl rfl hclient ?_ fun _ h => h
    intro m habs hne
    rw [hhandler] at hne
    exact absurd habs hne
  case registered =>
    refine ⟨fun m hactive => ?_, hs.registered.acceptor⟩
    rw [hhandler] at hactive
    rw [hclient]
    exact hs.registered.handler m hactive
  case stamped =>
    intro m msg hpc
    rw [hhandler] at hpc
    rw [hclient]
    exact hs.stamped m msg hpc

/-! ## Streams -/

/-- Nobody joins or leaves, and no list of clients is sent. -/
def Action.Calm : Action → Prop
  | .clientSend _ _ | .read _ | .broadcast _ | .deliver _ => True
  | _ => False

instance (a : Action) : Decidable a.Calm := by
  unfold Action.Calm
  split <;> infer_instance

theorem clients_of_calm {s s' : Net} {a : Action} (h : Step s a s') (hcalm : a.Calm) :
    s'.clients = s.clients ∧ s'.accepts = s.accepts := by
  cases h with
  | clientSend | readShort | read | deliver => exact ⟨rfl, rfl⟩
  | broadcast m msg hpc =>
      rw [Net.clients_modify, Net.accepts_modify]
      exact ⟨Net.clients_broadcastMessage msg _ s, Net.accepts_broadcastMessage msg _ s⟩
  | accept | sendID | acceptNotify | spawn | hangup | remove | exitNotify | lose =>
      exact hcalm.elim

/-- No message of the server is on its way to `r`. -/
def Net.Quiet (r : ℕ) (s : Net) : Prop :=
  ∀ frame ∈ (s.conn r).inFlight, BodyMeets (fun msg => ¬ IsControl msg) frame.body

theorem Net.Quiet.step {s s' : Net} {a : Action} {r : ℕ} (hs : s.Quiet r) (h : Step s a s')
    (hcalm : a.Calm) (hr : r < s.accepts)
    (hrelay : ∀ m msg, (s.conn m).handler = .broadcasting msg → ¬ IsControl msg) :
    s'.Quiet r := by
  intro frame hframe
  cases h.traffic hr with
  | sent frames hsends hclient hflight hreceived =>
      rw [hflight] at hframe
      rcases List.mem_append.1 hframe with hold | hsent
      · exact hs frame hold
      · cases hsends frame hsent with
        | id g ha hpc hn =>
            rw [ha] at hcalm
            exact hcalm.elim
        | roster g ha hmem hn =>
            rcases ha with rfl | ⟨m, rfl⟩
            · exact hcalm.elim
            · exact hcalm.elim
        | relay m msg g ha hpc hmem hn hid =>
            intro msg' hmsg
            obtain rfl : msg = msg' := Option.some.inj
              ((deserializeMessage_serializeMessage msg).symm.trans hmsg)
            exact hrelay m msg hpc
  | delivered f rest hf hclient hflight hreceived =>
      apply hs frame
      rw [hf]
      exact List.mem_cons_of_mem _ (hflight ▸ hframe)
  | lost hclient hflight hreceived => exact hs frame (hflight ▸ hframe)

section streams

variable {X : Type} (φ : BaseMessage UInt8 → List X)

/-- What `φ` takes from the message in a body. -/
def bodyItems (body : List UInt8) : List X :=
  match deserializeMessage body with
  | some msg => φ msg
  | none => []

/-- What it takes from messages with this sender. -/
def senderItems (senderID : UInt8) (msg : BaseMessage UInt8) : List X :=
  if msg.senderID = senderID then φ msg else []

/-- What the client has sent and its thread has not relayed. -/
def Connection.outgoing (c : Connection) : List X :=
  c.handler.message.flatMap φ ++ c.unread.flatMap (bodyItems φ)

/-- What is on its way from client `n` to client `r`, the oldest first. -/
def Net.onTheWay (n r : ℕ) (s : Net) : List X :=
  ((s.conn r).inFlight.flatMap fun frame =>
    bodyItems (senderItems φ (s.conn n).clientHandler.clientID) frame.body) ++
      (s.conn n).outgoing φ

/-- What a step does to it, and to the client that gets it. -/
inductive StreamStep (n r : ℕ) (s : Net) (a : Action) (s' : Net) : Prop where
  | same (ha : ∀ body, a ≠ .clientSend n body)
      (hclient : (s'.conn r).client = (s.conn r).client)
      (hitems : s'.onTheWay φ n r = s.onTheWay φ n r)
  | sent (body : List UInt8) (ha : a = .clientSend n body)
      (hclient : (s'.conn r).client = (s.conn r).client)
      (hitems : s'.onTheWay φ n r = s.onTheWay φ n r ++ bodyItems φ body)
  | delivered (frame : Frame) (rest : List Frame) (ha : a = .deliver r)
      (hflight : (s.conn r).inFlight = frame :: rest)
      (hclient : (s'.conn r).client = (s.conn r).client.receiveBody frame.body)
      (hitems : s.onTheWay φ n r =
        bodyItems (senderItems φ (s.conn n).clientHandler.clientID) frame.body ++
          s'.onTheWay φ n r)

variable {φ}

theorem bodyItems_serializeMessage (msg : BaseMessage UInt8) :
    bodyItems φ (serializeMessage msg) = φ msg := by
  unfold bodyItems
  rw [deserializeMessage_serializeMessage]

/-- What the stream depends on. -/
theorem onTheWay_congr {s s' : Net} {n r : ℕ}
    (hflight : (s'.conn r).inFlight = (s.conn r).inFlight)
    (hid : (s'.conn n).clientHandler = (s.conn n).clientHandler)
    (hout : (s'.conn n).outgoing φ = (s.conn n).outgoing φ) :
    s'.onTheWay φ n r = s.onTheWay φ n r := by
  unfold Net.onTheWay
  rw [hflight, hid, hout]

/-- A change of connection `m` that keeps what the stream depends on. -/
theorem StreamStep.modify {s : Net} {a : Action} {n r m : ℕ} {f : Connection → Connection}
    (ha : ∀ body, a ≠ .clientSend n body)
    (hclient : (f (s.conn m)).client = (s.conn m).client)
    (hflight : (f (s.conn m)).inFlight = (s.conn m).inFlight)
    (hid : (f (s.conn m)).clientHandler = (s.conn m).clientHandler)
    (hout : m = n → (f (s.conn m)).outgoing φ = (s.conn m).outgoing φ) :
    StreamStep φ n r s a (s.modify m f) := by
  have hr : ((s.modify m f).conn r).client = (s.conn r).client ∧
      ((s.modify m f).conn r).inFlight = (s.conn r).inFlight := by
    by_cases hrm : r = m
    · subst hrm
      rw [Net.conn_modify, Function.update_self]
      exact ⟨hclient, hflight⟩
    · rw [Net.conn_modify, Function.update_of_ne hrm]
      exact ⟨rfl, rfl⟩
  refine .same ha hr.1 (onTheWay_congr hr.2 (s.clientHandler_modify hid n) ?_)
  by_cases hnm : n = m
  · subst hnm
    rw [Net.conn_modify, Function.update_self]
    exact hout rfl
  · rw [Net.conn_modify, Function.update_of_ne hnm]

/-- What a broadcast puts on the socket of `r`. -/
theorem inFlight_broadcast {s : Net} (hs : Serving s) {m r : ℕ} {msg : BaseMessage UInt8}
    (hpc : (s.conn m).handler = .broadcasting msg) :
    (((s.broadcastMessage msg (s.conn m).clientHandler.clientID).modify m
      (Connection.relayed msg s.clients)).conn r).inFlight = (s.conn r).inFlight ++
        if r ≠ m ∧ Present r s.clients then [relayFrame msg s.clients] else [] := by
  rw [← relaysTo_broadcast hs.wellFormed hs.registered hs.distinct hpc]
  simp only [Net.relaysTo, hpc]
  by_cases hrm : r = m
  · subst hrm
    rw [Net.conn_modify, Function.update_self, Net.conn_broadcastMessage]
    rfl
  · rw [Net.conn_modify, Function.update_of_ne hrm, Net.conn_broadcastMessage]
    rfl

/-- A broadcast changes no client and no handler. -/
theorem client_broadcast {s : Net} (msg : BaseMessage UInt8) (excludeID : UInt8) (m n : ℕ) :
    (((s.broadcastMessage msg excludeID).modify m (Connection.relayed msg s.clients)).conn
      n).client = (s.conn n).client := by
  by_cases hnm : n = m
  · subst hnm
    rw [Net.conn_modify, Function.update_self, Net.conn_broadcastMessage]
    rfl
  · rw [Net.conn_modify, Function.update_of_ne hnm, Net.conn_broadcastMessage]
    rfl

theorem clientHandler_broadcast {s : Net} (msg : BaseMessage UInt8) (excludeID : UInt8)
    (m n : ℕ) : (((s.broadcastMessage msg excludeID).modify m
      (Connection.relayed msg s.clients)).conn n).clientHandler = (s.conn n).clientHandler := by
  rw [Net.clientHandler_modify _ rfl, Net.clientHandler_conn_broadcastMessage]

/-- The thread has relayed its message. -/
theorem outgoing_relayed {s : Net} {n : ℕ} {msg : BaseMessage UInt8}
    (hpc : (s.conn n).handler = .broadcasting msg) : (s.conn n).outgoing φ = φ msg ++
      (((s.broadcastMessage msg (s.conn n).clientHandler.clientID).modify n
        (Connection.relayed msg s.clients)).conn n).outgoing φ := by
  rw [Net.conn_modify, Function.update_self, Net.conn_broadcastMessage]
  unfold Connection.outgoing
  rw [hpc]
  simp [HandlerPoint.message, Connection.relayed, Connection.put]

theorem streamStep {s s' : Net} {a : Action} (hs : Serving s) (h : Step s a s') (hcalm : a.Calm)
    {n r : ℕ} (hn : n < s.accepts) (hr : Present r s.clients) (hnr : n ≠ r)
    (hφ : ∀ msg id, φ { msg with senderID := id } = φ msg) : StreamStep φ n r s a s' := by
  cases h with
  | clientSend m body hm hbody =>
      by_cases hmn : m = n
      · subst hmn
        refine .sent body rfl ?_ ?_
        · rw [Net.conn_modify, Function.update_of_ne hnr.symm]
        · unfold Net.onTheWay Connection.outgoing
          simp [Net.conn_modify, hnr.symm, Connection.submit]
      · refine .modify ?_ rfl rfl rfl fun heq => absurd heq hmn
        exact fun b heq => hmn (Action.clientSend.inj heq).1
  | readShort m body rest hpc hbody hmsg =>
      refine .modify (by simp) rfl rfl rfl fun _ => ?_
      unfold Connection.outgoing Connection.skip
      rw [hbody, List.flatMap_cons]
      unfold bodyItems
      rw [hmsg]
      rfl
  | read m body rest msg hpc hbody hmsg =>
      refine .modify (by simp) rfl rfl rfl fun _ => ?_
      unfold Connection.outgoing Connection.take Connection.skip
      rw [hbody, hpc, List.flatMap_cons]
      have hitems : bodyItems φ body = φ msg := by
        unfold bodyItems
        rw [hmsg]
      rw [hitems]
      simp [HandlerPoint.message, Connection.stamp, hφ]
  | broadcast m msg hpc =>
      have hm : m < s.accepts := hs.wellFormed.lt_accepts (by rw [hpc]; simp)
      refine .same (by simp) (client_broadcast msg _ m r) ?_
      unfold Net.onTheWay
      rw [inFlight_broadcast hs hpc, clientHandler_broadcast msg _ m n, List.flatMap_append]
      by_cases hmn : m = n
      · -- the message goes from the thread to the socket
        subst hmn
        rw [if_pos ⟨hnr.symm, hr⟩, outgoing_relayed hpc, List.flatMap_cons, List.flatMap_nil,
          List.append_nil, relayFrame, bodyItems_serializeMessage, senderItems,
          if_pos (hs.stamped m msg hpc), List.append_assoc]
      · -- a message with another sender
        have hother : senderItems φ (s.conn n).clientHandler.clientID msg = [] := by
          rw [senderItems, hs.stamped m msg hpc, if_neg (hs.clientID_ne hm hn hmn)]
        have hout : (((s.broadcastMessage msg (s.conn m).clientHandler.clientID).modify m
            (Connection.relayed msg s.clients)).conn n).outgoing φ = (s.conn n).outgoing φ := by
          rw [Net.conn_modify, Function.update_of_ne fun heq => hmn heq.symm,
            Net.conn_broadcastMessage]
          rfl
        rw [hout]
        split
        · rw [List.flatMap_cons, List.flatMap_nil, List.append_nil, relayFrame,
            bodyItems_serializeMessage, hother, List.append_nil]
        · rw [List.flatMap_nil, List.append_nil]
  | deliver m frame rest hconn hframe =>
      by_cases hmr : m = r
      · subst hmr
        refine .delivered frame rest rfl hframe ?_ ?_
        · rw [Net.conn_modify, Function.update_self]
          rfl
        · unfold Net.onTheWay
          rw [hframe, Net.conn_modify, Function.update_self, Function.update_of_ne hnr]
          simp [Connection.receive]
      · have hsame : ((s.modify m (Connection.receive frame rest)).conn r) = s.conn r := by
          rw [Net.conn_modify, Function.update_of_ne fun heq => hmr heq.symm]
        have hid := s.clientHandler_modify (n := m) (f := Connection.receive frame rest) rfl n
        refine .same (by simp) (by rw [hsame]) (onTheWay_congr (by rw [hsame]) hid ?_)
        by_cases hnm : n = m
        · subst hnm
          rw [Net.conn_modify, Function.update_self]
          rfl
        · rw [Net.conn_modify, Function.update_of_ne hnm]
  | accept | sendID | acceptNotify | spawn | hangup | remove | exitNotify | lose =>
      exact hcalm.elim

end streams

end HobbitSynchrony
