import HobbitSynchrony.Registration

/-! # What a step does to a connection

The frames on a socket, and what else a step can change about an open
connection.

* `Sends`: the frames a step puts on a socket, by the three functions that send;
* `Step.traffic`: a step sends such frames, delivers one, or breaks the line;
* `Step.thread`: a step reads a body, relays a message, or leaves the thread alone;
* `Step.clientHandler`, `Step.rosters`: what a step keeps.
-/

namespace HobbitSynchrony

/-- The step is a call of `notifyClients`. -/
def Action.Notifies (a : Action) : Prop := a = .acceptNotify ∨ ∃ m, a = .exitNotify m

/-- The frames a step puts on socket `n`. -/
inductive Sends (s : Net) (n : ℕ) (a : Action) : Frame → Prop where
  | id (h : ClientHandler) (ha : a = .sendID) (hpc : s.acceptor = .sendID h) (hn : h.socket = n) :
      Sends s n a (idFrame h.clientID s.clients)
  | roster (h : ClientHandler) (ha : a.Notifies) (hmem : h ∈ s.clients) (hn : h.socket = n) :
      Sends s n a (rosterFrame s.clients)
  | relay (m : ℕ) (msg : BaseMessage UInt8) (h : ClientHandler) (ha : a = .broadcast m)
      (hpc : (s.conn m).handler = .broadcasting msg) (hmem : h ∈ s.clients) (hn : h.socket = n)
      (hid : h.clientID ≠ (s.conn m).clientHandler.clientID) :
      Sends s n a (relayFrame msg s.clients)

/-- What a step does to the traffic of connection `c`, which becomes `c'`. -/
inductive Traffic (sends : Frame → Prop) (c c' : Connection) : Prop where
  | sent (frames : List Frame) (hsends : ∀ frame ∈ frames, sends frame)
      (hclient : c'.client = c.client) (hflight : c'.inFlight = c.inFlight ++ frames)
      (hreceived : c'.received = c.received)
  | delivered (frame : Frame) (rest : List Frame) (hframe : c.inFlight = frame :: rest)
      (hclient : c'.client = c.client.receiveBody frame.body) (hflight : c'.inFlight = rest)
      (hreceived : c'.received = c.received ++ [frame])
  | lost (hclient : c'.client = c.client.notifyServerDown) (hflight : c'.inFlight = c.inFlight)
      (hreceived : c'.received = c.received)

theorem Traffic.refl (sends : Frame → Prop) (c : Connection) : Traffic sends c c :=
  .sent [] (fun _ h => absurd h List.not_mem_nil) rfl (List.append_nil _).symm rfl

/-- A change of another part of the connection. -/
theorem Traffic.congr {sends : Frame → Prop} {c c' c'' : Connection} (h : Traffic sends c c')
    (hclient : c''.client = c'.client) (hflight : c''.inFlight = c'.inFlight)
    (hreceived : c''.received = c'.received) : Traffic sends c c'' := by
  cases h with
  | sent frames hsends h₁ h₂ h₃ =>
      exact .sent frames hsends (hclient.trans h₁) (hflight.trans h₂) (hreceived.trans h₃)
  | delivered frame rest hframe h₁ h₂ h₃ =>
      exact .delivered frame rest hframe (hclient.trans h₁) (hflight.trans h₂) (hreceived.trans h₃)
  | lost h₁ h₂ h₃ => exact .lost (hclient.trans h₁) (hflight.trans h₂) (hreceived.trans h₃)

/-- The traffic of a sending loop. -/
theorem traffic_sendTo {sends : Frame → Prop} (s : Net) (frame : Frame)
    (recipients : List ClientHandler) (n : ℕ)
    (h : ∀ h ∈ recipients, h.socket = n → sends frame) :
    Traffic sends (s.conn n) ((s.sendTo frame recipients).conn n) := by
  rw [Net.conn_sendTo]
  refine .sent _ ?_ rfl rfl rfl
  intro f hf
  -- a copy is there for every recipient on the socket
  rcases List.mem_replicate.1 hf with ⟨hpos, rfl⟩
  rcases List.countP_pos_iff.1 (Nat.pos_of_ne_zero hpos) with ⟨g, hg, hn⟩
  exact h g hg (by simpa using hn)

/-- A step that changes connection `m` only, and not its traffic. -/
theorem traffic_modify {sends : Frame → Prop} {s : Net} {n m : ℕ} {f : Connection → Connection}
    (hclient : (f (s.conn m)).client = (s.conn m).client)
    (hflight : (f (s.conn m)).inFlight = (s.conn m).inFlight)
    (hreceived : (f (s.conn m)).received = (s.conn m).received) :
    Traffic sends (s.conn n) ((s.modify m f).conn n) := by
  by_cases hm : n = m
  · subst hm
    rw [Net.conn_modify, Function.update_self]
    exact (Traffic.refl _ _).congr hclient hflight hreceived
  · rw [Net.conn_modify, Function.update_of_ne hm]
    exact Traffic.refl _ _

/-- A step puts only the frames of `Sends` on a socket that is open. -/
theorem Step.traffic {s s' : Net} {a : Action} (h : Step s a s') {n : ℕ} (hn : n < s.accepts) :
    Traffic (Sends s n a) (s.conn n) (s'.conn n) := by
  cases h with
  | accept ipAddress sinPort prev hpc hprev =>
      have hold : (s.accept ipAddress sinPort prev).conn n = s.conn n :=
        Function.update_of_ne (Nat.ne_of_lt hn) _ _
      rw [hold]
      exact Traffic.refl _ _
  | sendID h hpc =>
      refine traffic_sendTo s _ [h] n ?_
      intro g hg hgn
      obtain rfl := List.mem_singleton.1 hg
      exact .id g rfl hpc hgn
  | acceptNotify h hpc =>
      refine traffic_sendTo s _ s.clients n ?_
      intro g hg hgn
      exact .roster g (.inl rfl) hg hgn
  | spawn h hpc =>
      exact traffic_modify (m := h.socket) (f := fun c => { c with handler := .reading })
        rfl rfl rfl
  | clientSend m body hm hbody => exact traffic_modify rfl rfl rfl
  | readShort m body rest hpc hbody hmsg => exact traffic_modify rfl rfl rfl
  | read m body rest msg hpc hbody hmsg => exact traffic_modify rfl rfl rfl
  | broadcast m msg hpc =>
      have hsent : Traffic (Sends s n (.broadcast m)) (s.conn n)
          ((s.broadcastMessage msg (s.conn m).clientHandler.clientID).conn n) := by
        refine traffic_sendTo s _ _ n ?_
        intro g hg hgn
        rcases List.mem_filter.1 hg with ⟨hmem, hid⟩
        exact .relay m msg g rfl hpc hmem hgn (by simpa using hid)
      -- the sender moves on as well, which is no traffic
      by_cases hm : n = m
      · subst hm
        rw [Net.conn_modify, Function.update_self]
        exact hsent.congr rfl rfl rfl
      · rw [Net.conn_modify, Function.update_of_ne hm]
        exact hsent
  | hangup m hpc => exact traffic_modify rfl rfl rfl
  | remove m hpc =>
      exact traffic_modify (m := m) (f := fun c => { c with handler := .notifying }) rfl rfl rfl
  | exitNotify m hpc =>
      have hsent : Traffic (Sends s n (.exitNotify m)) (s.conn n) (s.notifyClients.conn n) := by
        refine traffic_sendTo s _ s.clients n ?_
        intro g hg hgn
        exact .roster g (.inr ⟨m, rfl⟩) hg hgn
      by_cases hm : n = m
      · subst hm
        rw [Net.conn_modify, Function.update_self]
        exact hsent.congr rfl rfl rfl
      · rw [Net.conn_modify, Function.update_of_ne hm]
        exact hsent
  | deliver m frame rest hconn hframe =>
      by_cases hm : n = m
      · subst hm
        rw [Net.conn_modify, Function.update_self]
        exact .delivered frame rest hframe rfl rfl rfl
      · rw [Net.conn_modify, Function.update_of_ne hm]
        exact Traffic.refl _ _
  | lose m hconn =>
      by_cases hm : n = m
      · subst hm
        rw [Net.conn_modify, Function.update_self]
        exact .lost rfl rfl rfl
      · rw [Net.conn_modify, Function.update_of_ne hm]
        exact Traffic.refl _ _

/-- An open connection keeps its handler. -/
theorem Step.clientHandler {s s' : Net} {a : Action} (h : Step s a s') {n : ℕ}
    (hn : n < s.accepts) : (s'.conn n).clientHandler = (s.conn n).clientHandler := by
  cases h with
  | accept ipAddress sinPort prev hpc hprev =>
      have hold : (s.accept ipAddress sinPort prev).conn n = s.conn n :=
        Function.update_of_ne (Nat.ne_of_lt hn) _ _
      rw [hold]
  | sendID h hpc => exact Net.clientHandler_conn_sendTo _ [h] s n
  | acceptNotify h hpc => exact Net.clientHandler_conn_notifyClients s n
  | spawn h hpc =>
      exact s.clientHandler_modify (n := h.socket) (f := fun c => { c with handler := .reading })
        rfl n
  | broadcast m msg hpc =>
      rw [Net.clientHandler_modify _ rfl, Net.clientHandler_conn_broadcastMessage]
  | remove m hpc =>
      exact s.clientHandler_modify (n := m) (f := fun c => { c with handler := .notifying }) rfl n
  | exitNotify m hpc =>
      rw [Net.clientHandler_modify _ rfl, Net.clientHandler_conn_notifyClients]
  | clientSend m body hm hbody => exact s.clientHandler_modify rfl n
  | readShort m body rest hpc hbody hmsg => exact s.clientHandler_modify rfl n
  | read m body rest msg hpc hbody hmsg => exact s.clientHandler_modify rfl n
  | hangup m hpc => exact s.clientHandler_modify rfl n
  | deliver m frame rest hconn hframe => exact s.clientHandler_modify rfl n
  | lose m hconn => exact s.clientHandler_modify rfl n

/-- The number of accepted connections does not shrink. -/
theorem Step.accepts_le {s s' : Net} {a : Action} (h : Step s a s') : s.accepts ≤ s'.accepts := by
  cases h with
  | accept ipAddress sinPort prev hpc hprev => exact Nat.le_succ _
  | acceptNotify h hpc => rw [Net.accepts_notifyClients]
  | broadcast m msg hpc => rw [Net.accepts_modify, Net.accepts_broadcastMessage]
  | exitNotify m hpc => rw [Net.accepts_modify, Net.accepts_notifyClients]
  | _ => exact Nat.le_refl _

/-- Lists that were sent stay in the history; `notifyClients` adds the current one. -/
theorem Step.rosters {s s' : Net} {a : Action} (h : Step s a s') :
    s.rosters ⊆ s'.rosters ∧ (a.Notifies → s.clients ∈ s'.rosters) := by
  cases h with
  | acceptNotify h hpc =>
      refine ⟨List.subset_append_left _ _, fun _ => ?_⟩
      exact List.mem_append_right _ (List.mem_singleton.2 rfl)
  | exitNotify m hpc =>
      refine ⟨List.subset_append_left _ _, fun _ => ?_⟩
      exact List.mem_append_right _ (List.mem_singleton.2 rfl)
  | broadcast m msg hpc =>
      rw [Net.rosters_modify, Net.rosters_broadcastMessage]
      exact ⟨List.Subset.refl _, by rintro (h | ⟨m, h⟩) <;> cases h⟩
  | _ => exact ⟨List.Subset.refl _, by rintro (h | ⟨m, h⟩) <;> cases h⟩

/-- A connection that is open after a step was open before, or the step opened it. -/
theorem Step.open_cases {s s' : Net} {a : Action} (h : Step s a s') {n : ℕ}
    (hn : n < s'.accepts) : n < s.accepts ∨ n = s.accepts ∧
      ∃ g prev, s'.conn n = .opened g (s.connecting prev) ∧ ∀ p, prev = some p → p < s.accepts := by
  cases h with
  | accept ipAddress sinPort prev hpc hprev =>
      rcases Nat.lt_succ_iff_lt_or_eq.1 hn with hlt | rfl
      · exact .inl hlt
      · refine .inr ⟨rfl, _, prev, Function.update_self _ _ _, ?_⟩
        intro p hp
        exact (hprev p hp).1
  | acceptNotify h hpc =>
      left
      rwa [Net.accepts_notifyClients] at hn
  | broadcast m msg hpc =>
      left
      rwa [Net.accepts_modify, Net.accepts_broadcastMessage] at hn
  | exitNotify m hpc =>
      left
      rwa [Net.accepts_modify, Net.accepts_notifyClients] at hn
  | _ => exact .inl hn

/-! ## The handler's side -/

/-- The message a thread is about to relay. -/
def HandlerPoint.message : HandlerPoint → List (BaseMessage UInt8)
  | .broadcasting msg => [msg]
  | _ => []

/-- What a step does to the thread of connection `c`, which becomes `c'`. -/
inductive Thread (s : Net) (a : Action) (n : ℕ) (c c' : Connection) : Prop where
  | idle (ha : a ≠ .broadcast n) (hmessage : c'.handler.message = c.handler.message)
      (hconsumed : c'.consumed = c.consumed) (hrelays : c'.relays = c.relays)
  | skipped (body : List UInt8) (ha : a ≠ .broadcast n) (hmsg : deserializeMessage body = none)
      (hmessage : c'.handler.message = c.handler.message)
      (hconsumed : c'.consumed = c.consumed ++ [body]) (hrelays : c'.relays = c.relays)
  | took (body : List UInt8) (msg : BaseMessage UInt8) (ha : a ≠ .broadcast n)
      (hmsg : deserializeMessage body = some msg) (hbefore : c.handler.message = [])
      (hmessage : c'.handler.message = [c.stamp msg])
      (hconsumed : c'.consumed = c.consumed ++ [body]) (hrelays : c'.relays = c.relays)
  | relayed (msg : BaseMessage UInt8) (ha : a = .broadcast n)
      (hpc : (s.conn n).handler = .broadcasting msg) (hmessage : c'.handler.message = [])
      (hconsumed : c'.consumed = c.consumed) (hrelays : c'.relays = c.relays ++ [(msg, s.clients)])

/-- A step that changes connection `m` only, and nothing its thread reads or relays. -/
theorem thread_modify {s : Net} {a : Action} {n m : ℕ} {f : Connection → Connection}
    (ha : a ≠ .broadcast n)
    (hmessage : (f (s.conn m)).handler.message = (s.conn m).handler.message)
    (hconsumed : (f (s.conn m)).consumed = (s.conn m).consumed)
    (hrelays : (f (s.conn m)).relays = (s.conn m).relays) :
    Thread s a n (s.conn n) ((s.modify m f).conn n) := by
  by_cases hm : n = m
  · subst hm
    rw [Net.conn_modify, Function.update_self]
    exact .idle ha hmessage hconsumed hrelays
  · rw [Net.conn_modify, Function.update_of_ne hm]
    exact .idle ha rfl rfl rfl

theorem thread_sendTo {s : Net} {a : Action} (frame : Frame) (recipients : List ClientHandler)
    {n : ℕ} (ha : a ≠ .broadcast n) :
    Thread s a n (s.conn n) ((s.sendTo frame recipients).conn n) := by
  rw [Net.conn_sendTo]
  exact .idle ha rfl rfl rfl

theorem Step.thread {s s' : Net} {a : Action} (h : Step s a s') (hs : s.WellFormed) {n : ℕ}
    (hn : n < s.accepts) : Thread s a n (s.conn n) (s'.conn n) := by
  cases h with
  | accept ipAddress sinPort prev hpc hprev =>
      have hold : (s.accept ipAddress sinPort prev).conn n = s.conn n :=
        Function.update_of_ne (Nat.ne_of_lt hn) _ _
      rw [hold]
      exact .idle nofun rfl rfl rfl
  | sendID h hpc => exact thread_sendTo _ [h] nofun
  | acceptNotify h hpc => exact thread_sendTo _ s.clients nofun
  | spawn h hpc =>
      -- the acceptor starts a thread only where there is none
      have habs := (hs.acceptor h (by rw [hpc]; rfl)).2.2
      exact thread_modify (m := h.socket) (f := fun c => { c with handler := .reading }) nofun
        (by rw [habs]; rfl) rfl rfl
  | clientSend m body hm hbody => exact thread_modify nofun rfl rfl rfl
  | readShort m body rest hpc hbody hmsg =>
      by_cases hm : n = m
      · subst hm
        rw [Net.conn_modify, Function.update_self]
        exact .skipped body nofun hmsg rfl rfl rfl
      · rw [Net.conn_modify, Function.update_of_ne hm]
        exact .idle nofun rfl rfl rfl
  | read m body rest msg hpc hbody hmsg =>
      by_cases hm : n = m
      · subst hm
        rw [Net.conn_modify, Function.update_self]
        exact .took body msg nofun hmsg (by rw [hpc]; rfl) rfl rfl rfl
      · rw [Net.conn_modify, Function.update_of_ne hm]
        exact .idle nofun rfl rfl rfl
  | broadcast m msg hpc =>
      by_cases hm : n = m
      · subst hm
        rw [Net.conn_modify, Function.update_self, Net.conn_broadcastMessage]
        exact .relayed msg rfl hpc rfl rfl rfl
      · rw [Net.conn_modify, Function.update_of_ne hm]
        exact thread_sendTo _ _ fun heq => hm (Action.broadcast.inj heq).symm
  | hangup m hpc => exact thread_modify nofun (by rw [hpc]; rfl) rfl rfl
  | remove m hpc =>
      exact thread_modify (m := m) (f := fun c => { c with handler := .notifying }) nofun
        (by rw [hpc]; rfl) rfl rfl
  | exitNotify m hpc =>
      by_cases hm : n = m
      · subst hm
        rw [Net.conn_modify, Function.update_self, Net.conn_notifyClients]
        exact .idle nofun (by rw [hpc]; rfl) rfl rfl
      · rw [Net.conn_modify, Function.update_of_ne hm]
        exact thread_sendTo _ s.clients nofun
  | deliver m frame rest hconn hframe => exact thread_modify nofun rfl rfl rfl
  | lose m hconn => exact thread_modify nofun rfl rfl rfl

end HobbitSynchrony
