import Mathlib.Data.List.Nodup
import HobbitSynchrony.Network

/-! # Handlers, sockets and threads

How the server's list of handlers, the sockets and the threads belong together
in every reachable state.

* `WellFormed`: handlers and sockets, whatever the IDs;
* `Registered`: active threads have their handler in the list. This needs
  distinct IDs, since removal goes by ID;
* `WellFormed.step`, `Registered.step`: every step keeps them.
-/

namespace HobbitSynchrony

namespace Net

/-- The registered handlers have distinct IDs. -/
def DistinctIDs (s : Net) : Prop := (s.clients.map ClientHandler.clientID).Nodup

theorem DistinctIDs.eq {s : Net} (hs : s.DistinctIDs) {h h' : ClientHandler} (hh : h ∈ s.clients)
    (hh' : h' ∈ s.clients) (hid : h.clientID = h'.clientID) : h = h' :=
  List.inj_on_of_nodup_map hs hh hh' hid

/-- How the server's members and the connections belong together. -/
structure WellFormed (s : Net) : Prop where
  nextClientID : s.nextClientID = UInt8.ofNat (s.accepts + 1)
  clientID : ∀ n < s.accepts, (s.conn n).clientHandler.clientID = UInt8.ofNat (n + 1)
  socket : ∀ n < s.accepts, (s.conn n).clientHandler.socket = n
  registered : ∀ h ∈ s.clients, h.socket < s.accepts ∧ (s.conn h.socket).clientHandler = h
  sockets : (s.clients.map ClientHandler.socket).Nodup
  unused : ∀ n, s.accepts ≤ n → (s.conn n).handler = .absent
  acceptor : ∀ h, s.acceptor.current = some h →
    h.socket < s.accepts ∧ (s.conn h.socket).clientHandler = h ∧
      (s.conn h.socket).handler = .absent

/-- Active threads and the client being set up are registered. -/
structure Registered (s : Net) : Prop where
  handler : ∀ n, (s.conn n).handler.Active → (s.conn n).clientHandler ∈ s.clients
  acceptor : ∀ h, s.acceptor.current = some h → h ∈ s.clients

theorem wellFormed_start : start.WellFormed where
  nextClientID := rfl
  clientID := fun n hn => absurd hn (Nat.not_lt_zero n)
  socket := fun n hn => absurd hn (Nat.not_lt_zero n)
  registered := fun h hh => absurd hh List.not_mem_nil
  sockets := List.nodup_nil
  unused := fun _ _ => rfl
  acceptor := fun h hh => by cases hh

theorem registered_start : start.Registered where
  handler := fun _ hn => hn.elim
  acceptor := fun h hh => by cases hh

/-- A thread that is not absent runs for an accepted socket. -/
theorem WellFormed.lt_accepts {s : Net} (hs : s.WellFormed) {n : ℕ}
    (hn : (s.conn n).handler ≠ .absent) : n < s.accepts := by
  by_contra hle
  exact hn (hs.unused n (Nat.le_of_not_lt hle))

/-- The active thread of a socket has the handler with that socket. -/
theorem WellFormed.mem_iff {s : Net} (hs : s.WellFormed) {n : ℕ}
    (hn : (s.conn n).clientHandler ∈ s.clients) (hlt : n < s.accepts) {h : ClientHandler}
    (hh : h ∈ s.clients) : h.socket = n ↔ h = (s.conn n).clientHandler := by
  constructor
  · rintro rfl
    exact ((hs.registered h hh).2).symm
  · rintro rfl
    exact hs.socket n hlt

/-- What the well-formedness of a state depends on. A thread may start only for
an accepted socket, when the acceptor has let go of it. -/
theorem WellFormed.congr {s s' : Net} (hs : s.WellFormed) (hclients : s'.clients = s.clients)
    (hnext : s'.nextClientID = s.nextClientID) (haccepts : s'.accepts = s.accepts)
    (hhandler : ∀ n, (s'.conn n).clientHandler = (s.conn n).clientHandler)
    (hstart : ∀ n, (s.conn n).handler = .absent → (s'.conn n).handler ≠ .absent →
      n < s.accepts ∧ s'.acceptor.current = none)
    (hcurrent : ∀ h, s'.acceptor.current = some h → s.acceptor.current = some h) :
    s'.WellFormed where
  nextClientID := by rw [hnext, haccepts, hs.nextClientID]
  clientID := by
    intro n hn
    rw [hhandler, hs.clientID n (haccepts ▸ hn)]
  socket := by
    intro n hn
    rw [hhandler, hs.socket n (haccepts ▸ hn)]
  registered := by
    intro h hh
    rw [hclients] at hh
    rw [hhandler, haccepts]
    exact hs.registered h hh
  sockets := by
    rw [hclients]
    exact hs.sockets
  unused := by
    intro n hn
    rw [haccepts] at hn
    by_contra hne
    exact Nat.not_lt.2 hn (hstart n (hs.unused n hn) hne).1
  acceptor := by
    intro h hh
    rcases hs.acceptor h (hcurrent h hh) with ⟨hlt, hconn, habs⟩
    refine ⟨haccepts ▸ hlt, (hhandler _).trans hconn, ?_⟩
    by_contra hne
    rw [(hstart _ habs hne).2] at hh
    cases hh

theorem clientHandler_modify (s : Net) {n : ℕ} {f : Connection → Connection}
    (hhandler : (f (s.conn n)).clientHandler = (s.conn n).clientHandler) (m : ℕ) :
    ((s.modify n f).conn m).clientHandler = (s.conn m).clientHandler := by
  by_cases hm : m = n
  · subst hm
    simpa using hhandler
  · simp [hm]

/-- A change of one connection that keeps its handler and starts no thread. -/
theorem WellFormed.modify {s : Net} (hs : s.WellFormed) {n : ℕ} {f : Connection → Connection}
    (hhandler : (f (s.conn n)).clientHandler = (s.conn n).clientHandler)
    (habsent : (s.conn n).handler = .absent → (f (s.conn n)).handler = .absent) :
    (s.modify n f).WellFormed := by
  refine hs.congr rfl rfl rfl (s.clientHandler_modify hhandler) ?_ (fun _ h => h)
  intro m hm hne
  by_cases hmn : m = n
  · subst hmn
    simp [habsent hm] at hne
  · simp [hmn, hm] at hne

theorem WellFormed.sendTo {s : Net} (hs : s.WellFormed) (frame : Frame)
    (recipients : List ClientHandler) : (s.sendTo frame recipients).WellFormed := by
  rw [sendTo_eq]
  exact hs.congr rfl rfl rfl (fun _ => rfl) (fun _ h hne => absurd h hne) (fun _ h => h)

theorem WellFormed.notifyClients {s : Net} (hs : s.WellFormed) : s.notifyClients.WellFormed :=
  (hs.sendTo _ _).congr rfl rfl rfl (fun _ => rfl) (fun _ h hne => absurd h hne) (fun _ h => h)

theorem WellFormed.broadcastMessage {s : Net} (hs : s.WellFormed) (msg : BaseMessage UInt8)
    (excludeID : UInt8) : (s.broadcastMessage msg excludeID).WellFormed :=
  hs.sendTo _ _

theorem WellFormed.accept {s : Net} (hs : s.WellFormed) (ipAddress : IpText) (sinPort : UInt16)
    (prev : Option ℕ) : (s.accept ipAddress sinPort prev).WellFormed := by
  -- the new socket is behind all the others
  have hold : ∀ n < s.accepts,
      (s.accept ipAddress sinPort prev).conn n = s.conn n :=
    fun n hn => Function.update_of_ne (Nat.ne_of_lt hn) _ _
  have hnew : (s.accept ipAddress sinPort prev).conn s.accepts =
      .opened (s.newHandler ipAddress sinPort) (s.connecting prev) :=
    Function.update_self _ _ _
  constructor
  case nextClientID =>
    show s.nextClientID + 1 = UInt8.ofNat (s.accepts + 1 + 1)
    rw [hs.nextClientID, UInt8.ofNat_add (s.accepts + 1)]
    rfl
  case clientID =>
    intro n hn
    rcases Nat.lt_succ_iff_lt_or_eq.1 hn with hlt | rfl
    · rw [hold n hlt, hs.clientID n hlt]
    · rw [hnew]
      exact hs.nextClientID
  case socket =>
    intro n hn
    rcases Nat.lt_succ_iff_lt_or_eq.1 hn with hlt | rfl
    · rw [hold n hlt, hs.socket n hlt]
    · rw [hnew]
      rfl
  case registered =>
    intro h hh
    rcases List.mem_append.1 hh with hh | hh
    · rcases hs.registered h hh with ⟨hlt, hconn⟩
      exact ⟨Nat.lt_succ_of_lt hlt, by rw [hold _ hlt, hconn]⟩
    · obtain rfl := List.mem_singleton.1 hh
      exact ⟨Nat.lt_succ_self _, by rw [socket_newHandler, hnew]; rfl⟩
  case sockets =>
    show ((s.clients ++ [_]).map ClientHandler.socket).Nodup
    rw [List.map_append, List.nodup_append]
    refine ⟨hs.sockets, List.nodup_singleton _, ?_⟩
    intro n hn m hm heq
    rcases List.mem_map.1 hn with ⟨h, hh, rfl⟩
    obtain rfl : m = s.accepts := by simpa using hm
    exact Nat.lt_irrefl _ (heq ▸ (hs.registered h hh).1)
  case unused =>
    intro n hn
    have hne : n ≠ s.accepts := Nat.ne_of_gt hn
    show ((Function.update s.conn s.accepts _) n).handler = .absent
    rw [Function.update_of_ne hne]
    exact hs.unused n (Nat.le_of_succ_le hn)
  case acceptor =>
    intro h hh
    cases hh
    rw [socket_newHandler, hnew]
    exact ⟨Nat.lt_succ_self _, rfl, rfl⟩

theorem WellFormed.remove {s : Net} (hs : s.WellFormed) (n : ℕ)
    (hpc : (s.conn n).handler = .removing) : (s.remove n).WellFormed := by
  have hmod := hs.modify (n := n) (f := fun c => { c with handler := .notifying }) rfl
    (fun habs => by rw [hpc] at habs; cases habs)
  -- handlers leave the list, and nothing else that is said of it changes
  have hsub : (s.remove n).clients.Sublist s.clients := List.filter_sublist
  exact
    { nextClientID := hmod.nextClientID
      clientID := hmod.clientID
      socket := hmod.socket
      registered := fun h hh => hmod.registered h (hsub.subset hh)
      sockets := hs.sockets.sublist (hsub.map _)
      unused := hmod.unused
      acceptor := hmod.acceptor }

/-- Every step keeps the server well formed. -/
theorem WellFormed.step {s s' : Net} {a : Action} (hs : s.WellFormed) (h : Step s a s') :
    s'.WellFormed := by
  cases h with
  | accept ipAddress sinPort prev hpc hprev => exact hs.accept ipAddress sinPort prev
  | sendID h hpc =>
      refine (hs.sendTo _ [h]).congr rfl rfl rfl (fun _ => rfl) (fun _ h hne => absurd h hne) ?_
      intro g hg
      show s.acceptor.current = some g
      rw [hpc]
      exact hg
  | acceptNotify h hpc =>
      refine hs.notifyClients.congr rfl rfl rfl (fun _ => rfl) (fun _ h hne => absurd h hne) ?_
      intro g hg
      rw [acceptor_notifyClients, hpc]
      exact hg
  | spawn h hpc =>
      have hkeep := s.clientHandler_modify (n := h.socket)
        (f := fun c => { c with handler := .reading }) rfl
      refine hs.congr rfl rfl rfl hkeep ?_ (fun _ hc => by cases hc)
      intro m habs hne
      by_cases hm : m = h.socket
      · -- the thread that starts
        subst hm
        exact ⟨(hs.acceptor h (by rw [hpc]; rfl)).1, rfl⟩
      · simp [hm, habs] at hne
  | clientSend n body hn hbody => exact hs.modify rfl (fun habs => habs)
  | readShort n body rest hpc hbody hmsg => exact hs.modify rfl (fun habs => habs)
  | read n body rest msg hpc hbody hmsg =>
      exact hs.modify rfl (fun habs => by rw [hpc] at habs; cases habs)
  -- sending loops change the traffic only
  | broadcast n msg hpc =>
      refine (hs.broadcastMessage msg _).modify rfl (fun habs => ?_)
      rw [handler_conn_broadcastMessage, hpc] at habs
      cases habs
  | hangup n hpc => exact hs.modify rfl (fun habs => by rw [hpc] at habs; cases habs)
  | remove n hpc => exact hs.remove n hpc
  | exitNotify n hpc =>
      refine hs.notifyClients.modify rfl (fun habs => ?_)
      rw [handler_conn_notifyClients, hpc] at habs
      cases habs
  | deliver n frame rest hconn hframe => exact hs.modify rfl (fun habs => habs)
  | lose n hconn => exact hs.modify rfl (fun habs => habs)

/-! ## Threads of registered handlers -/

/-- What it depends on that the active threads are registered. -/
theorem Registered.congr {s s' : Net} (hr : s.Registered) (hclients : s'.clients = s.clients)
    (hhandler : ∀ n, (s'.conn n).clientHandler = (s.conn n).clientHandler)
    (hactive : ∀ n, (s'.conn n).handler.Active →
      (s.conn n).handler.Active ∨ (s.conn n).clientHandler ∈ s.clients)
    (hcurrent : ∀ h, s'.acceptor.current = some h → s.acceptor.current = some h) :
    s'.Registered where
  handler := by
    intro n hn
    rw [hhandler, hclients]
    rcases hactive n hn with h | h
    · exact hr.handler n h
    · exact h
  acceptor := by
    intro h hh
    rw [hclients]
    exact hr.acceptor h (hcurrent h hh)

theorem Registered.modify {s : Net} (hr : s.Registered) {n : ℕ} {f : Connection → Connection}
    (hhandler : (f (s.conn n)).clientHandler = (s.conn n).clientHandler)
    (hactive : (f (s.conn n)).handler.Active → (s.conn n).handler.Active) :
    (s.modify n f).Registered := by
  refine hr.congr rfl (s.clientHandler_modify hhandler) ?_ (fun _ h => h)
  intro m hm
  left
  by_cases hmn : m = n
  · subst hmn
    exact hactive (by simpa using hm)
  · simpa [hmn] using hm

theorem Registered.sendTo {s : Net} (hr : s.Registered) (frame : Frame)
    (recipients : List ClientHandler) : (s.sendTo frame recipients).Registered := by
  rw [sendTo_eq]
  exact hr.congr rfl (fun _ => rfl) (fun _ h => .inl h) (fun _ h => h)

theorem Registered.notifyClients {s : Net} (hr : s.Registered) : s.notifyClients.Registered :=
  (hr.sendTo _ _).congr rfl (fun _ => rfl) (fun _ h => .inl h) (fun _ h => h)

/-- With distinct IDs, leaving out the ID of a registered handler leaves out its
socket, and nothing else. -/
theorem filter_clientID_eq {s : Net} (hs : s.WellFormed) (hd : s.DistinctIDs) {n : ℕ}
    (hn : n < s.accepts) (hmem : (s.conn n).clientHandler ∈ s.clients) :
    (s.clients.filter fun h => h.clientID != (s.conn n).clientHandler.clientID) =
      s.clients.filter fun h => h.socket != n := by
  apply List.filter_congr
  intro h hh
  have hiff : h.clientID = (s.conn n).clientHandler.clientID ↔ h.socket = n := by
    rw [hs.mem_iff hmem hn hh]
    exact ⟨fun hid => hd.eq hh hmem hid, fun heq => by rw [heq]⟩
  rw [Bool.eq_iff_iff]
  simpa using not_congr hiff

/-- With distinct IDs a removal takes out the handler of its thread only. -/
theorem clients_remove {s : Net} (hs : s.WellFormed) (hr : s.Registered) (hd : s.DistinctIDs)
    {n : ℕ} (hpc : (s.conn n).handler = .removing) :
    (s.remove n).clients = s.clients.filter fun h => h.socket != n :=
  filter_clientID_eq hs hd (hs.lt_accepts (by rw [hpc]; simp)) (hr.handler n (by rw [hpc]; trivial))

/-- With distinct IDs every step keeps the active threads registered. -/
theorem Registered.step {s s' : Net} {a : Action} (hr : s.Registered) (hs : s.WellFormed)
    (hd : s.DistinctIDs) (h : Step s a s') : s'.Registered := by
  cases h with
  | accept ipAddress sinPort prev hpc hprev =>
      constructor
      case handler =>
        intro n hn
        by_cases hnew : n = s.accepts
        · -- the new connection has no thread yet
          subst hnew
          simp [Net.accept, Connection.opened, HandlerPoint.Active] at hn
        · rw [Net.accept] at hn ⊢
          simp only [Function.update_of_ne hnew] at hn ⊢
          exact List.mem_append_left _ (hr.handler n hn)
      case acceptor =>
        intro h hh
        cases hh
        exact List.mem_append_right _ (List.mem_singleton.2 rfl)
  | sendID h hpc =>
      refine (hr.sendTo _ [h]).congr rfl (fun _ => rfl) (fun _ h => .inl h) ?_
      intro g hg
      show s.acceptor.current = some g
      rw [hpc]
      exact hg
  | acceptNotify h hpc =>
      refine hr.notifyClients.congr rfl (fun _ => rfl) (fun _ h => .inl h) ?_
      intro g hg
      rw [acceptor_notifyClients, hpc]
      exact hg
  | spawn h hpc =>
      have hkeep := s.clientHandler_modify (n := h.socket)
        (f := fun c => { c with handler := .reading }) rfl
      have hcur : s.acceptor.current = some h := by rw [hpc]; rfl
      refine hr.congr rfl hkeep ?_ (fun _ hc => by cases hc)
      intro m hm
      by_cases hmn : m = h.socket
      · -- the thread that starts
        subst hmn
        right
        rw [(hs.acceptor h hcur).2.1]
        exact hr.acceptor h hcur
      · left
        simpa [hmn] using hm
  | clientSend n body hn hbody => exact hr.modify rfl (fun hact => hact)
  | readShort n body rest hpc hbody hmsg => exact hr.modify rfl (fun hact => hact)
  | read n body rest msg hpc hbody hmsg => exact hr.modify rfl (fun _ => by rw [hpc]; trivial)
  | broadcast n msg hpc =>
      refine (hr.sendTo _ _).modify rfl (fun _ => ?_)
      rw [handler_conn_sendTo, hpc]
      trivial
  | hangup n hpc => exact hr.modify rfl (fun _ => by rw [hpc]; trivial)
  | remove n hpc =>
      have hmem : (s.conn n).clientHandler ∈ s.clients := hr.handler n (by rw [hpc]; trivial)
      have hlt : n < s.accepts := hs.lt_accepts (by rw [hpc]; simp)
      -- with distinct IDs every other handler stays in the list
      have hstay : ∀ h ∈ s.clients, h.socket ≠ n → h ∈ (s.remove n).clients := by
        intro h hh hne
        rw [clients_remove hs hr hd hpc]
        exact List.mem_filter.2 ⟨hh, by simpa using hne⟩
      constructor
      case handler =>
        intro m hm
        by_cases hmn : m = n
        · -- the thread that removes its handler is no longer active
          subst hmn
          simp [Net.remove, HandlerPoint.Active] at hm
        · have hkeep : (s.remove n).conn m = s.conn m := by simp [Net.remove, hmn]
          rw [hkeep] at hm ⊢
          refine hstay _ (hr.handler m hm) ?_
          rw [hs.socket m (hs.lt_accepts fun habs => by rw [habs] at hm; exact hm)]
          exact hmn
      case acceptor =>
        intro h hh
        refine hstay h (hr.acceptor h hh) ?_
        -- the client being set up has no thread yet, so it is not the one removed
        intro heq
        have habs := (hs.acceptor h hh).2.2
        rw [heq, hpc] at habs
        cases habs
  | exitNotify n hpc => exact hr.notifyClients.modify rfl (fun hact => hact.elim)
  | deliver n frame rest hconn hframe => exact hr.modify rfl (fun hact => hact)
  | lose n hconn => exact hr.modify rfl (fun hact => hact)

end Net

end HobbitSynchrony
