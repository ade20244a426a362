import HobbitSynchrony.ControlFrames

/-! # What the clients send is what they get

What is known of the messages that every client sends is known of all messages
in all inboxes, in every state that the server and its clients reach, once the
server has named their senders.

* `BodyMeets`, `SendsOnly`: the clients send messages with a property;
* `InboxMeets`: the texts, events and snapshots a client holds have one;
* `Carries`: the invariant, from the sockets of the senders to the inboxes;
* `carries_step`: a step keeps it, if what is sent becomes what is got.
-/

namespace HobbitSynchrony

open Transition

/-- If the body is a message, it is one with the property `P`. -/
def BodyMeets (P : BaseMessage UInt8 → Prop) (body : List UInt8) : Prop :=
  ∀ msg, deserializeMessage body = some msg → P msg

/-- Client `n` sends messages with the property `Q n`. -/
def SendsOnly (Q : ℕ → BaseMessage UInt8 → Prop) (a : Action) : Prop :=
  ∀ n body, a = .clientSend n body → BodyMeets (Q n) body

/-- The messages in the inbox of a client, each of the type it is kept for, and the
snapshots under the ID of their sender. -/
structure InboxMeets (P : BaseMessage UInt8 → Prop) (c : Client) : Prop where
  text : ∀ msg ∈ c.textMessages, msg.messageType = textMessage ∧ P msg
  event : ∀ msg ∈ c.eventMessages, msg.messageType = eventMessage ∧ P msg
  snapshot : ∀ id msg, c.snapshotMessages id = some msg →
    msg.messageType = snapshotMessage ∧ msg.senderID = id ∧ P msg

/-- What is sent by client `n` has the property `Q n`, and what gets to the others,
with a sender, the property `P`. -/
structure Carries (Q : ℕ → BaseMessage UInt8 → Prop) (P : BaseMessage UInt8 → Prop) (s : Net) :
    Prop where
  unread : ∀ n, ∀ body ∈ (s.conn n).unread, BodyMeets (Q n) body
  broadcasting : ∀ n msg, (s.conn n).handler = .broadcasting msg → P msg
  flight : ∀ n < s.accepts, ∀ f ∈ (s.conn n).inFlight,
    BodyMeets (fun msg => IsControl msg ∨ P msg) f.body
  inbox : ∀ n < s.accepts, InboxMeets P (s.conn n).client

variable {Q Q' : ℕ → BaseMessage UInt8 → Prop} {P P' : BaseMessage UInt8 → Prop}

/-! ## Inboxes -/

theorem inboxMeets_new : InboxMeets P Client.new where
  text := fun _ h => absurd h List.not_mem_nil
  event := fun _ h => absurd h List.not_mem_nil
  snapshot := fun _ _ h => by cases h

/-- What the inbox does not depend on. -/
theorem InboxMeets.congr {c c' : Client} (h : InboxMeets P c)
    (htext : c'.textMessages = c.textMessages) (hevent : c'.eventMessages = c.eventMessages)
    (hsnap : c'.snapshotMessages = c.snapshotMessages) : InboxMeets P c' where
  text := by
    rw [htext]
    exact h.text
  event := by
    rw [hevent]
    exact h.event
  snapshot := by
    rw [hsnap]
    exact h.snapshot

/-- A message with the property is put into the inbox of its type. -/
theorem inboxMeets_sortMessageByType {c : Client} (h : InboxMeets P c) {msg : BaseMessage UInt8}
    (hmsg : IsControl msg ∨ P msg) : InboxMeets P (c.sortMessageByType msg) := by
  -- a message that is put into an inbox is no control message
  have hP : ¬ IsControl msg → P msg := fun hno => hmsg.resolve_left hno
  unfold Client.sortMessageByType
  split
  next htext =>
    refine ⟨fun m hm => ?_, h.event, h.snapshot⟩
    rcases List.mem_append.1 hm with hm | hm
    · exact h.text m hm
    · obtain rfl := List.mem_singleton.1 hm
      exact ⟨htext, hP (by rw [IsControl, htext]; decide)⟩
  next =>
    split
    next hevent =>
      refine ⟨h.text, fun m hm => ?_, h.snapshot⟩
      rcases List.mem_append.1 hm with hm | hm
      · exact h.event m hm
      · obtain rfl := List.mem_singleton.1 hm
        exact ⟨hevent, hP (by rw [IsControl, hevent]; decide)⟩
    next =>
      split
      next hsnap =>
        refine ⟨h.text, h.event, fun id m hm => ?_⟩
        by_cases hid : id = msg.senderID
        · subst hid
          have heq : some msg = some m := by simpa using hm
          obtain rfl := Option.some.inj heq
          exact ⟨hsnap, rfl, hP (by rw [IsControl, hsnap]; decide)⟩
        · exact h.snapshot id m (by simpa [hid] using hm)
      next =>
        split
        next => exact h.congr rfl rfl rfl
        next => exact h

/-- The inbox meets every weaker property. -/
theorem InboxMeets.mono {c : Client} (h : InboxMeets P c) (hP : ∀ msg, P msg → P' msg) :
    InboxMeets P' c where
  text := fun msg hmsg => (h.text msg hmsg).imp_right (hP msg)
  event := fun msg hmsg => (h.event msg hmsg).imp_right (hP msg)
  snapshot := fun id msg hmsg => (h.snapshot id msg hmsg).imp_right (And.imp_right (hP msg))

theorem inboxMeets_receiveBody {c : Client} (h : InboxMeets P c) {body : List UInt8}
    (hbody : BodyMeets (fun msg => IsControl msg ∨ P msg) body) :
    InboxMeets P (c.receiveBody body) := by
  unfold Client.receiveBody
  split
  next => exact h
  next msg hmsg =>
    split
    next => exact h.congr rfl rfl rfl
    next => exact inboxMeets_sortMessageByType h (hbody msg hmsg)

/-! ## Steps -/

theorem carries_start : Carries Q P Net.start where
  unread := fun _ _ h => absurd h List.not_mem_nil
  broadcasting := fun _ _ h => by cases h
  flight := fun n hn => absurd hn (Nat.not_lt_zero n)
  inbox := fun n hn => absurd hn (Nat.not_lt_zero n)

theorem Carries.mono {s : Net} (h : Carries Q P s) (hQ : ∀ n msg, Q n msg → Q' n msg)
    (hP : ∀ msg, P msg → P' msg) : Carries Q' P' s where
  unread := fun n body hbody msg hmsg => hQ n msg (h.unread n body hbody msg hmsg)
  broadcasting := fun n msg hpc => hP msg (h.broadcasting n msg hpc)
  flight := fun n hn f hf msg hmsg => (h.flight n hn f hf msg hmsg).imp_right (hP msg)
  inbox := fun n hn => (h.inbox n hn).mono hP

/-- The frames a step sends carry control messages of the server, or messages
that a thread has read. -/
theorem bodyMeets_of_sends {s : Net} {a : Action} {n : ℕ} {f : Frame} (hs : Carries Q P s)
    (h : Sends s n a f) : BodyMeets (fun msg => IsControl msg ∨ P msg) f.body := by
  intro msg hmsg
  cases h with
  | id g ha hpc hn =>
      obtain rfl : idMessage g.clientID = msg := Option.some.inj hmsg
      exact .inl (isControl_idMessage _)
  | roster g ha hmem hn =>
      obtain rfl : rosterMessage s.clients = msg := Option.some.inj hmsg
      exact .inl (isControl_rosterMessage _)
  | relay m msg' g ha hpc hmem hn hid =>
      obtain rfl : msg' = msg := Option.some.inj hmsg
      exact .inr (hs.broadcasting m msg' hpc)

/-- The bodies that wait at the server, after a step. -/
theorem unread_step {s s' : Net} {a : Action} (h : Step s a s') (n : ℕ) :
    ∀ body ∈ (s'.conn n).unread, body ∈ (s.conn n).unread ∨ a = .clientSend n body := by
  intro body hbody
  cases h with
  | accept ipAddress sinPort prev hpc hprev =>
      by_cases hn : n = s.accepts
      · subst hn
        simp [Net.accept, Connection.opened] at hbody
      · exact .inl (by simpa [Net.accept, hn] using hbody)
  | sendID g hpc =>
      have hsame : ((s.sendTo (idFrame g.clientID s.clients) [g]).conn n).unread =
          (s.conn n).unread := by
        rw [Net.conn_sendTo]
        rfl
      exact .inl (hsame ▸ hbody)
  | acceptNotify g hpc =>
      have hsame : (s.notifyClients.conn n).unread = (s.conn n).unread := by
        rw [Net.conn_notifyClients]
        rfl
      exact .inl (hsame ▸ hbody)
  | spawn g hpc =>
      by_cases hn : n = g.socket
      · subst hn
        exact .inl (by simpa using hbody)
      · exact .inl (by simpa [hn] using hbody)
  | clientSend m b hm hb =>
      by_cases hn : n = m
      · subst hn
        rw [Net.conn_modify, Function.update_self] at hbody
        rcases List.mem_append.1 hbody with hold | hnew
        · exact .inl hold
        · rw [List.mem_singleton.1 hnew]
          exact .inr rfl
      · exact .inl (by simpa [hn] using hbody)
  | readShort m b rest hpc hb hmsg =>
      by_cases hn : n = m
      · subst hn
        rw [Net.conn_modify, Function.update_self] at hbody
        exact .inl (by rw [hb]; exact List.mem_cons_of_mem _ hbody)
      · exact .inl (by simpa [hn] using hbody)
  | read m b rest msg hpc hb hmsg =>
      by_cases hn : n = m
      · subst hn
        rw [Net.conn_modify, Function.update_self] at hbody
        exact .inl (by rw [hb]; exact List.mem_cons_of_mem _ hbody)
      · exact .inl (by simpa [hn] using hbody)
  | broadcast m msg hpc =>
      have hsame : ((s.broadcastMessage msg (s.conn m).clientHandler.clientID).conn n).unread =
          (s.conn n).unread := by
        rw [Net.conn_broadcastMessage]
        rfl
      by_cases hn : n = m
      · subst hn
        rw [Net.conn_modify, Function.update_self] at hbody
        exact .inl (hsame ▸ hbody)
      · rw [Net.conn_modify, Function.update_of_ne hn] at hbody
        exact .inl (hsame ▸ hbody)
  | exitNotify m hpc =>
      have hsame : (s.notifyClients.conn n).unread = (s.conn n).unread := by
        rw [Net.conn_notifyClients]
        rfl
      by_cases hn : n = m
      · subst hn
        rw [Net.conn_modify, Function.update_self] at hbody
        exact .inl (hsame ▸ hbody)
      · rw [Net.conn_modify, Function.update_of_ne hn] at hbody
        exact .inl (hsame ▸ hbody)
  | remove m hpc =>
      by_cases hn : n = m
      · subst hn
        exact .inl (by simpa [Net.remove] using hbody)
      · exact .inl (by simpa [Net.remove, hn] using hbody)
  | hangup m hpc =>
      by_cases hn : n = m
      · subst hn
        exact .inl (by simpa using hbody)
      · exact .inl (by simpa [hn] using hbody)
  | deliver m f rest hconn hframe =>
      by_cases hn : n = m
      · subst hn
        rw [Net.conn_modify, Function.update_self] at hbody
        exact .inl hbody
      · exact .inl (by simpa [hn] using hbody)
  | lose m hconn =>
      by_cases hn : n = m
      · subst hn
        exact .inl (by simpa using hbody)
      · exact .inl (by simpa [hn] using hbody)

/-- A message that a thread is about to relay, after a step. -/
theorem broadcasting_step {s s' : Net} {a : Action} (h : Step s a s') {n : ℕ}
    {msg : BaseMessage UInt8} (hpc : (s'.conn n).handler = .broadcasting msg) :
    (s.conn n).handler = .broadcasting msg ∨
      ∃ body ∈ (s.conn n).unread, ∃ m, deserializeMessage body = some m ∧
        msg = (s.conn n).stamp m := by
  -- only `read` puts a message there
  have hmod : ∀ {t : Net} {m : ℕ} {f : Connection → Connection},
      ((t.modify m f).conn n).handler = .broadcasting msg →
      (t.conn n).handler = (s.conn n).handler →
      (∀ c x, (f c).handler ≠ .broadcasting x) ∨ (∀ c, (f c).handler = c.handler) →
      (s.conn n).handler = .broadcasting msg := by
    intro t m f hafter hsame hf
    by_cases hn : n = m
    · subst hn
      rw [Net.conn_modify, Function.update_self] at hafter
      rcases hf with hno | hkeep
      · exact absurd hafter (hno _ _)
      · rwa [hkeep, hsame] at hafter
    · rw [Net.conn_modify, Function.update_of_ne hn, hsame] at hafter
      exact hafter
  cases h with
  | accept ipAddress sinPort prev hacc hprev =>
      by_cases hn : n = s.accepts
      · subst hn
        simp [Net.accept, Connection.opened] at hpc
      · exact .inl (by simpa [Net.accept, hn] using hpc)
  | sendID g hacc =>
      have hsame : ((s.sendTo (idFrame g.clientID s.clients) [g]).conn n).handler =
          (s.conn n).handler := by
        rw [Net.conn_sendTo]
        rfl
      exact .inl (hsame ▸ hpc)
  | acceptNotify g hacc =>
      have hsame : (s.notifyClients.conn n).handler = (s.conn n).handler := by
        rw [Net.conn_notifyClients]
        rfl
      exact .inl (hsame ▸ hpc)
  | spawn g hacc =>
      exact .inl (hmod (t := s) (m := g.socket) (f := fun c => { c with handler := .reading })
        hpc rfl (.inl fun _ _ h => by cases h))
  | clientSend m b hm hb => exact .inl (hmod hpc rfl (.inr fun _ => rfl))
  | readShort m b rest hread hb hmsg => exact .inl (hmod hpc rfl (.inr fun _ => rfl))
  | read m b rest msg' hread hb hmsg =>
      by_cases hn : n = m
      · subst hn
        rw [Net.conn_modify, Function.update_self] at hpc
        refine .inr ⟨b, by rw [hb]; exact List.mem_cons_self, msg', hmsg, ?_⟩
        exact (HandlerPoint.broadcasting.inj hpc).symm
      · exact .inl (by simpa [hn] using hpc)
  | broadcast m msg' hread =>
      refine .inl (hmod hpc ?_ (.inl fun _ _ h => by cases h))
      rw [Net.conn_broadcastMessage]
      rfl
  | exitNotify m hread =>
      refine .inl (hmod hpc ?_ (.inl fun _ _ h => by cases h))
      rw [Net.conn_notifyClients]
      rfl
  | remove m hread =>
      exact .inl (hmod (t := s) (m := m) (f := fun c => { c with handler := .notifying })
        hpc rfl (.inl fun _ _ h => by cases h))
  | hangup m hread => exact .inl (hmod hpc rfl (.inl fun _ _ h => by cases h))
  | deliver m f rest hconn hframe => exact .inl (hmod hpc rfl (.inr fun _ => rfl))
  | lose m hconn => exact .inl (hmod hpc rfl (.inr fun _ => rfl))

theorem carries_step {s s' : Net} {a : Action}
    (hstamp : ∀ n msg, Q n msg → P ((s.conn n).stamp msg)) (hs : Carries Q P s)
    (hsend : SendsOnly Q a) (h : Step s a s') : Carries Q P s' where
  unread := by
    intro n body hbody
    rcases unread_step h n body hbody with hold | hnew
    · exact hs.unread n body hold
    · exact hsend n body hnew
  broadcasting := by
    intro n msg hpc
    rcases broadcasting_step h hpc with hold | ⟨body, hbody, m, hm, rfl⟩
    · exact hs.broadcasting n msg hold
    · exact hstamp n m (hs.unread n body hbody m hm)
  flight := by
    intro n hn f hf
    rcases h.open_cases hn with hlt | ⟨-, g, prev, hnew, -⟩
    · cases h.traffic hlt with
      | sent frames hsends hclient hflight hreceived =>
          rw [hflight] at hf
          rcases List.mem_append.1 hf with hold | hsent
          · exact hs.flight n hlt f hold
          · exact bodyMeets_of_sends hs (hsends f hsent)
      | delivered g rest hg hclient hflight hreceived =>
          apply hs.flight n hlt f
          rw [hg]
          exact List.mem_cons_of_mem _ (hflight ▸ hf)
      | lost hclient hflight hreceived => exact hs.flight n hlt f (hflight ▸ hf)
    · rw [hnew] at hf
      exact absurd hf List.not_mem_nil
  inbox := by
    intro n hn
    rcases h.open_cases hn with hlt | ⟨-, g, prev, hnew, hprev⟩
    · have hc := hs.inbox n hlt
      cases h.traffic hlt with
      | sent frames hsends hclient hflight hreceived => exact hclient ▸ hc
      | delivered g rest hg hclient hflight hreceived =>
          rw [hclient]
          exact inboxMeets_receiveBody hc (hs.flight n hlt g (by rw [hg]; exact List.mem_cons_self))
      | lost hclient hflight hreceived =>
          rw [hclient]
          exact hc.congr rfl rfl rfl
    · -- a new connection keeps the inboxes of the one before it
      rw [hnew]
      cases prev with
      | none => exact inboxMeets_new.congr rfl rfl rfl
      | some p => exact (hs.inbox p (hprev p rfl)).congr rfl rfl rfl

/-- The program behind a socket takes messages out of its inboxes. -/
theorem Carries.withClient {s : Net} (hs : Carries Q P s) {n : ℕ} {c : Client}
    (hc : InboxMeets P c) : Carries Q P (s.modify n fun conn => { conn with client := c }) := by
  have hconn : ∀ m, ((s.modify n fun conn => { conn with client := c }).conn m).unread =
        (s.conn m).unread ∧
      ((s.modify n fun conn => { conn with client := c }).conn m).handler = (s.conn m).handler ∧
      ((s.modify n fun conn => { conn with client := c }).conn m).inFlight =
        (s.conn m).inFlight := by
    intro m
    by_cases hm : m = n
    · subst hm
      rw [Net.conn_modify, Function.update_self]
      exact ⟨rfl, rfl, rfl⟩
    · rw [Net.conn_modify, Function.update_of_ne hm]
      exact ⟨rfl, rfl, rfl⟩
  refine ⟨?unread, ?broadcasting, ?flight, ?inbox⟩
  case unread =>
    intro m body hbody
    exact hs.unread m body ((hconn m).1 ▸ hbody)
  case broadcasting =>
    intro m msg hpc
    exact hs.broadcasting m msg ((hconn m).2.1 ▸ hpc)
  case flight =>
    intro m hm f hf
    exact hs.flight m hm f ((hconn m).2.2 ▸ hf)
  case inbox =>
    intro m hm
    by_cases hmn : m = n
    · subst hmn
      rw [Net.conn_modify, Function.update_self]
      exact hc
    · rw [Net.conn_modify, Function.update_of_ne hmn]
      exact hs.inbox m hm

end HobbitSynchrony
