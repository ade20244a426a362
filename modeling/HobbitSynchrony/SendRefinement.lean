import HobbitSynchrony.SendSimulation

/-! # The sends refine the frames

Every step of the server send by send is matched by steps of the server frame by
frame.

* `Sim.thread`, `Sim.relock`: what the steps of the threads have in common;
* `Performs`, `sim_step`: the abstract steps of one concrete step;
* `sends_refine`: whole runs, in which no length cuts a message that is half sent.
-/

namespace HobbitSynchrony.Sends

open Transition

/-! ## The steps of `acceptClients` -/

theorem sim_accept {g : Progress} {s : State} {t : Net} (h : Sim g s t)
    (hpc : s.acceptor = .accepting) (ipAddress : IpText) (sinPort : UInt16) :
    Sim g { s with
      nextClientID := s.nextClientID + 1
      accepts := s.accepts + 1
      acceptor := .pushing ⟨s.accepts, s.nextClientID, ipAddress, ntohs sinPort⟩ } t := by
  have hacceptor := h.acceptor
  have haccepts := h.accepts
  have hnext := h.nextClientID
  rw [hpc] at hacceptor haccepts hnext
  have hnew : (⟨s.accepts, s.nextClientID, ipAddress, ntohs sinPort⟩ : ClientHandler) =
      t.newHandler ipAddress sinPort := by
    rw [haccepts, hnext]
    simp [AcceptPoint.unpushed, Net.newHandler]
  refine ⟨h.clients, ?_, ?_, ?_, h.handler, h.clientID, h.unread, h.issued, h.unused,
    h.undelivered⟩
  · rw [haccepts]
    rfl
  · rw [hnext]
    simp [AcceptPoint.unpushed]
  · rw [hnew]
    show AcceptSim t (g.place s .acceptClients) _ _
    generalize g.place s .acceptClients = p at hacceptor ⊢
    generalize t.acceptor = q at hacceptor ⊢
    cases hacceptor
    exact .pushing ipAddress sinPort

/-- The new handler comes into the list; this is the abstract accept. -/
theorem sim_push {g : Progress} {s : State} {t : Net} (h : Sim g s t) (hw : t.WellFormed)
    {new : ClientHandler} (hpc : s.acceptor = .pushing new) (hmutex : s.mutex = none) :
    ∃ ipAddress sinPort t', HobbitSynchrony.Step t (.accept ipAddress sinPort none) t' ∧
      Sim g { s with clients := s.clients ++ [new], acceptor := .idLength new } t' := by
  have hacceptor := h.acceptor
  have haccepts := h.accepts
  have hnext := h.nextClientID
  rw [hpc] at hacceptor haccepts hnext
  rw [place_none hmutex] at hacceptor
  generalize hq : t.acceptor = q at hacceptor
  cases hacceptor with
  | pushing ipAddress sinPort =>
    refine ⟨ipAddress, sinPort, _, .accept t ipAddress sinPort none hq (by simp), ?_⟩
    have hconn : ∀ n, n ≠ t.accepts → (t.accept ipAddress sinPort none).conn n = t.conn n :=
      fun n hn => Function.update_of_ne hn _ _
    have hopened : (t.accept ipAddress sinPort none).conn t.accepts =
        .opened (t.newHandler ipAddress sinPort) (t.connecting none) :=
      Function.update_self _ _ _
    -- the thread of the new socket does not run yet
    have habsent : s.handler t.accepts = .absent :=
      (h.handler _).point_absent_iff.2 (hw.unused _ le_rfl)
    constructor
    case clients =>
      show t.clients ++ _ = _
      rw [h.clients]
    case accepts => exact haccepts
    case nextClientID =>
      show s.nextClientID = t.nextClientID + 1 + 0
      rw [hnext, UInt8.add_zero]
      rfl
    case acceptor =>
      show AcceptSim _ (g.place s .acceptClients) _ _
      rw [place_none hmutex]
      exact .idLength _
    case handler =>
      intro n
      have hn := h.handler n
      show HandlerSim _ _ (g.place s (.handleClient n)) _ _
      rw [place_none hmutex] at hn ⊢
      by_cases heq : n = t.accepts
      · subst heq
        rw [hopened, habsent]
        exact .absent
      · rw [hconn n heq]
        exact hn.congr
    case clientID =>
      intro n hn
      rw [hconn n (ne_of_lt (h.lt_accepts hw hn))]
      exact h.clientID n hn
    case unread =>
      intro n
      by_cases heq : n = t.accepts
      · subst heq
        rw [hopened]
        rfl
      · rw [hconn n heq]
        exact h.unread n
    case issued =>
      intro r
      have hr := h.issued r
      show s.issued r ++ g.late s r = _ ++ g.early s r
      rw [late_none hmutex, early_none hmutex] at hr ⊢
      by_cases heq : r = t.accepts
      · subst heq
        rw [h.unused _ le_rfl] at hr
        rw [hopened]
        exact hr
      · rw [hconn r heq]
        exact hr
    case unused =>
      intro n hn
      have hlt : t.accepts < n := hn
      rw [hconn n (ne_of_gt hlt)]
      exact h.unused n hlt.le
    case undelivered =>
      intro n hn
      by_cases heq : n = t.accepts
      · subst heq
        rw [hopened]
        exact ⟨rfl, rfl⟩
      · rw [hconn n heq]
        have hlt : n < t.accepts + 1 := hn
        exact h.undelivered n (by omega)

/-- The length of the client ID message goes out; this is the abstract send. The
loop under the lock is on the same side of it in both models. -/
theorem sim_sendIDLength {g : Progress} {s : State} {t : Net} (h : Sim g s t) (hw : t.WellFormed)
    {new : ClientHandler} (hpc : s.acceptor = .idLength new)
    (hlate : g.late s new.socket = []) (hearly : g.early s new.socket = []) :
    ∃ t', HobbitSynchrony.Step t .sendID t' ∧
      Sim g { s.putLength (idBuffer new) new.socket with acceptor := .idBody new } t' := by
  have hacceptor := h.acceptor
  have haccepts := h.accepts
  have hnext := h.nextClientID
  rw [hpc] at hacceptor haccepts hnext
  generalize hp : g.place s .acceptClients = p at hacceptor
  generalize hq : t.acceptor = q at hacceptor
  cases hacceptor
  refine ⟨_, .sendID t new hq, ?_⟩
  have hlt : new.socket < t.accepts := (hw.acceptor new (by rw [hq]; rfl)).1
  have hsent : t.send (idFrame new.clientID t.clients) new.socket =
      t.sendTo (idFrame new.clientID t.clients) [new] := rfl
  have hsame := fun n => sameClient_sendTo (idFrame new.clientID t.clients) [new] t n
  constructor
  case clients => exact h.clients
  case accepts => exact haccepts
  case nextClientID => exact hnext
  case acceptor =>
    show AcceptSim _ (g.place s .acceptClients) _ _
    rw [hp]
    exact .idBody new
  case handler =>
    intro n
    show HandlerSim _ _ (g.place s _) _ ((t.send _ _).conn n).handler
    rw [hsent, Net.handler_conn_sendTo]
    exact h.handler n
  case clientID =>
    intro n hn
    exact (h.clientID n hn).trans (congrArg ClientHandler.clientID (hsame n).clientHandler.symm)
  case unread =>
    intro n
    exact (hsame n).unread.trans (h.unread n)
  case issued =>
    intro r
    have hr := h.issued r
    show Function.update s.issued new.socket _ r ++ g.late s r =
      (((t.send _ _).conn r).stream).map Frame.body ++ g.early s r
    by_cases heq : r = new.socket
    · subst heq
      rw [hlate, hearly, List.append_nil, List.append_nil] at hr ⊢
      rw [Function.update_self, Net.send, Net.conn_modify, Function.update_self, stream_put,
        List.map_append, hr]
      rfl
    · rw [Function.update_of_ne heq, Net.send, Net.conn_modify, Function.update_of_ne heq]
      exact hr
  case unused =>
    intro n hn
    have hle : t.accepts ≤ n := hn
    show ((t.send _ _).conn n).stream = []
    rw [Net.send, Net.conn_modify, Function.update_of_ne (by omega)]
    exact h.unused n hle
  case undelivered =>
    intro n hn
    have hn' := h.undelivered n hn
    exact ⟨(hsame n).received.trans hn'.1, (hsame n).client.trans hn'.2⟩

/-- The body of the client ID message; the abstract server has sent it. -/
theorem sim_sendIDBody {g : Progress} {s : State} {t : Net} (h : Sim g s t) {new : ClientHandler}
    (hpc : s.acceptor = .idBody new) :
    Sim g { s.putBody (idBuffer new) new.socket with acceptor := .locking new } t := by
  have hacceptor := h.acceptor
  have haccepts := h.accepts
  have hnext := h.nextClientID
  rw [hpc] at hacceptor haccepts hnext
  refine ⟨h.clients, haccepts, hnext, ?_, h.handler, h.clientID, h.unread, h.issued, h.unused,
    h.undelivered⟩
  show AcceptSim t (g.place s .acceptClients) _ _
  generalize g.place s .acceptClients = p at hacceptor ⊢
  generalize t.acceptor = q at hacceptor ⊢
  cases hacceptor
  exact .locking new

/-- The thread of a connection starts. -/
def started (c : Connection) : Connection := { c with handler := .reading }

/-- The thread for the new connection starts. -/
theorem sim_spawn {g : Progress} {s : State} {t : Net} (h : Sim g s t) (hw : t.WellFormed)
    {new : ClientHandler} (hpc : s.acceptor = .spawning new) :
    ∃ t', HobbitSynchrony.Step t .spawn t' ∧
      Sim g { s with handler := Function.update s.handler new.socket .receiving,
                     clientID := Function.update s.clientID new.socket new.clientID,
                     acceptor := .accepting } t' := by
  have hacceptor := h.acceptor
  have haccepts := h.accepts
  have hnext := h.nextClientID
  rw [hpc] at hacceptor haccepts hnext
  generalize hp : g.place s .acceptClients = p at hacceptor
  generalize hq : t.acceptor = q at hacceptor
  cases hacceptor
  refine ⟨_, .spawn t new hq, ?_⟩
  rcases hw.acceptor new (by rw [hq]; rfl) with ⟨hlt, hnew, habs⟩
  have hold := h.handler new.socket
  -- the thread was absent in both models, so it does not hold the lock
  rw [(hold.point_absent_iff).2 habs] at hold
  have hplace := hold.outside_of_absent
  have hsame := SameClient.modify (t := t) (n := new.socket) (f := started)
    (fun m => ⟨rfl, rfl, rfl, rfl⟩) fun c => ⟨rfl, rfl, rfl, rfl⟩
  have hstream := stream_modify (t := t) (n := new.socket) (f := started) fun c => rfl
  constructor
  case clients => exact h.clients
  case accepts => exact haccepts
  case nextClientID => exact hnext
  case acceptor =>
    show AcceptSim _ (g.place s .acceptClients) _ _
    rw [hp]
    exact .accepting
  case handler =>
    intro n
    show HandlerSim _ (Function.update s.clientID new.socket new.clientID n)
      (g.place s (.handleClient n)) (Function.update s.handler new.socket .receiving n)
      ((t.modify new.socket started).conn n).handler
    by_cases heq : n = new.socket
    · subst heq
      rw [hplace, Net.conn_modify, Function.update_self, Function.update_self,
        Function.update_self]
      exact .receiving
    · rw [Net.conn_modify, Function.update_of_ne heq, Function.update_of_ne heq,
        Function.update_of_ne heq]
      exact h.handler n
  case clientID =>
    intro n hn
    show Function.update s.clientID new.socket new.clientID n =
      ((t.modify new.socket started).conn n).clientHandler.clientID
    rw [(hsame n).clientHandler]
    by_cases heq : n = new.socket
    · subst heq
      rw [Function.update_self, hnew]
    · have hn' : s.handler n ≠ .absent := by
        simpa [heq] using hn
      rw [Function.update_of_ne heq]
      exact h.clientID n hn'
  case unread =>
    intro n
    exact (hsame n).unread.trans (h.unread n)
  case issued =>
    intro r
    show s.issued r ++ g.late s r =
      ((t.modify new.socket started).conn r).stream.map Frame.body ++ g.early s r
    rw [hstream]
    exact h.issued r
  case unused =>
    intro n hn
    exact (hstream n).trans (h.unused n hn)
  case undelivered =>
    intro n hn
    have hn' := h.undelivered n hn
    exact ⟨(hsame n).received.trans hn'.1, (hsame n).client.trans hn'.2⟩

/-! ## The steps of `handleClient` -/

theorem modify_modify (t : Net) (n : ℕ) (f f' : Connection → Connection) :
    (t.modify n f).modify n f' = t.modify n (f' ∘ f) := by
  simp [Net.modify]

/-- One thread outside of its critical section moves on. -/
theorem Sim.thread {g : Progress} {s : State} {t : Net} (h : Sim g s t) {n : ℕ} {q : HandlerPoint}
    {f : Connection → Connection} (hplace : g.place s (.handleClient n) = .outside)
    (hq : HandlerSim s.clients (s.clientID n) .outside q (f (t.conn n)).handler)
    (hn : s.handler n ≠ .absent)
    (hhandler : (f (t.conn n)).clientHandler = (t.conn n).clientHandler)
    (hunread : (f (t.conn n)).unread = []) (hstream : (f (t.conn n)).stream = (t.conn n).stream)
    (hreceived : (f (t.conn n)).received = (t.conn n).received)
    (hclient : (f (t.conn n)).client = (t.conn n).client) :
    Sim g { s with handler := Function.update s.handler n q } (t.modify n f) := by
  have hsame (m : ℕ) : ((t.modify n f).conn m).stream = (t.conn m).stream := by
    by_cases heq : m = n
    · subst heq
      rw [Net.conn_modify, Function.update_self, hstream]
    · rw [Net.conn_modify, Function.update_of_ne heq]
  constructor
  case clients => exact h.clients
  case accepts => exact h.accepts
  case nextClientID => exact h.nextClientID
  case acceptor =>
    exact AcceptSim.modify h.acceptor
  case handler =>
    intro m
    show HandlerSim s.clients (s.clientID m) (g.place s (.handleClient m))
      (Function.update s.handler n q m) ((t.modify n f).conn m).handler
    by_cases heq : m = n
    · subst heq
      rw [hplace, Net.conn_modify, Function.update_self, Function.update_self]
      exact hq
    · rw [Net.conn_modify, Function.update_of_ne heq, Function.update_of_ne heq]
      exact h.handler m
  case clientID =>
    intro m hm
    by_cases heq : m = n
    · subst heq
      rw [Net.conn_modify, Function.update_self, hhandler]
      exact h.clientID m hn
    · have hm' : s.handler m ≠ .absent := by
        simpa [heq] using hm
      rw [Net.conn_modify, Function.update_of_ne heq]
      exact h.clientID m hm'
  case unread =>
    intro m
    by_cases heq : m = n
    · subst heq
      rw [Net.conn_modify, Function.update_self, hunread]
    · rw [Net.conn_modify, Function.update_of_ne heq]
      exact h.unread m
  case issued =>
    intro r
    show s.issued r ++ g.late s r = ((t.modify _ _).conn r).stream.map Frame.body ++ g.early s r
    rw [hsame]
    exact h.issued r
  case unused =>
    intro m hm
    exact (hsame m).trans (h.unused m hm)
  case undelivered =>
    intro m hm
    have hm' := h.undelivered m hm
    by_cases heq : m = n
    · subst heq
      rw [Net.conn_modify, Function.update_self, hreceived, hclient]
      exact hm'
    · rw [Net.conn_modify, Function.update_of_ne heq]
      exact hm'

/-- Without a critical section the list of handlers can change in both models. -/
theorem Sim.withClients {g : Progress} {s : State} {t : Net} (h : Sim g s t)
    (hmutex : s.mutex = none) (clients : List ClientHandler) :
    Sim g { s with clients := clients } { t with clients := clients } := by
  refine ⟨rfl, h.accepts, h.nextClientID, ?_, ?_, h.clientID, h.unread, h.issued, h.unused,
    h.undelivered⟩
  · have hacceptor := h.acceptor
    show AcceptSim _ (g.place s .acceptClients) _ _
    rw [place_none hmutex] at hacceptor ⊢
    exact hacceptor.congr rfl rfl
  · intro n
    have hn := h.handler n
    show HandlerSim _ _ (g.place s (.handleClient n)) _ _
    rw [place_none hmutex] at hn ⊢
    exact hn.congr

/-- A body arrives and is read; the abstract client sends it at that moment. -/
theorem sim_receive {g : Progress} {s s' : State} {t : Net} (h : Sim g s t) (hw : t.WellFormed)
    (n : ℕ) (body : List UInt8) (hstep : step s (.receive n body) = some s') :
    ∃ t', Run HobbitSynchrony.Step t [.clientSend n body, .read n] t' ∧ Sim g s' t' ∧
      s'.acceptor = s.acceptor := by
  simp only [step] at hstep
  split at hstep
  next hpc =>
    split at hstep
    next hlt =>
      have hhandler := h.handler n
      have hn : s.handler n ≠ .absent := by
        rw [hpc]
        simp
      rw [hpc] at hhandler
      generalize hplace : g.place s (.handleClient n) = p at hhandler
      generalize hq : (t.conn n).handler = q at hhandler
      cases hhandler
      -- the body is the only one that waits to be read
      have hsent := Run.single (Step.clientSend t n body (h.lt_accepts hw hn) hlt)
      have hconn : (t.modify n (Connection.submit body)).conn n =
          (t.conn n).submit body := Function.update_self _ _ _
      have hunread : ((t.modify n (Connection.submit body)).conn n).unread = body :: [] := by
        rw [hconn, Connection.submit, h.unread n, List.nil_append]
      have hreading : ((t.modify n (Connection.submit body)).conn n).handler = .reading := by
        rw [hconn]
        exact hq
      split at hstep
      next hmsg =>
        cases hstep
        refine ⟨_, hsent.append (Run.single (.readShort _ n body [] hreading hunread hmsg)), ?_,
          rfl⟩
        rw [modify_modify]
        have hsame := h.thread (q := .receiving)
          (f := Connection.skip body [] ∘ Connection.submit body) hplace ?_ hn rfl rfl rfl rfl rfl
        · rw [← hpc, Function.update_eq_self] at hsame
          exact hsame
        · show HandlerSim _ _ _ _ (t.conn n).handler
          rw [hq]
          exact .receiving
      next msg hmsg =>
        cases hstep
        refine ⟨_, hsent.append (Run.single (.read _ n body [] msg hreading hunread hmsg)), ?_,
          rfl⟩
        rw [modify_modify, h.clientID n hn]
        exact h.thread hplace (.locking _) hn rfl rfl rfl rfl rfl
    next => cases hstep
  next => cases hstep

theorem sim_hangup {g : Progress} {s : State} {t : Net} (h : Sim g s t) {n : ℕ}
    (hpc : s.handler n = .receiving) :
    ∃ t', HobbitSynchrony.Step t (.hangup n) t' ∧
      Sim g { s with handler := Function.update s.handler n .erasing } t' := by
  have hhandler := h.handler n
  rw [hpc] at hhandler
  generalize hplace : g.place s (.handleClient n) = p at hhandler
  generalize hq : (t.conn n).handler = q at hhandler
  cases hhandler
  refine ⟨_, .hangup t n hq, ?_⟩
  exact h.thread hplace .erasing (by rw [hpc]; simp) rfl (h.unread n) rfl rfl rfl

theorem sim_erase {g : Progress} {s : State} {t : Net} (h : Sim g s t) {n : ℕ}
    (hpc : s.handler n = .erasing) (hmutex : s.mutex = none) :
    ∃ t', HobbitSynchrony.Step t (.remove n) t' ∧
      Sim g { s with clients := s.clients.filter fun ch => ch.clientID != s.clientID n,
                     handler := Function.update s.handler n .lockingNotify } t' := by
  have hhandler := h.handler n
  have hn : s.handler n ≠ .absent := by
    rw [hpc]
    simp
  rw [hpc] at hhandler
  generalize hplace : g.place s (.handleClient n) = p at hhandler
  generalize hq : (t.conn n).handler = q at hhandler
  cases hhandler
  refine ⟨_, .remove t n hq, ?_⟩
  have hmoved := h.thread (q := .lockingNotify) (f := fun c => { c with handler := .notifying })
    hplace .lockingNotify hn rfl (h.unread n) rfl rfl rfl
  have hremoved := hmoved.withClients hmutex
    (s.clients.filter fun ch => ch.clientID != s.clientID n)
  rw [Net.remove, h.clients, ← h.clientID n hn]
  exact hremoved

/-! ## The steps under the lock -/

/-- The lock is taken or released, and its holder moves on. -/
theorem Sim.relock {g g' : Progress} {s : State} {t : Net} (h : Sim g s t) {m : Option Loop}
    {p : AcceptPoint} {f : ℕ → HandlerPoint} (hunpushed : p.unpushed = s.acceptor.unpushed)
    (hacceptor : AcceptSim t
      (g'.place { s with mutex := m, acceptor := p, handler := f } .acceptClients) p t.acceptor)
    (hhandler : ∀ n, HandlerSim s.clients (s.clientID n)
      (g'.place { s with mutex := m, acceptor := p, handler := f } (.handleClient n)) (f n)
      (t.conn n).handler)
    (habsent : ∀ n, f n ≠ .absent → s.handler n ≠ .absent)
    (hlate : ∀ r, g'.late { s with mutex := m, acceptor := p, handler := f } r = g.late s r)
    (hearly : ∀ r, g'.early { s with mutex := m, acceptor := p, handler := f } r = g.early s r) :
    Sim g' { s with mutex := m, acceptor := p, handler := f } t where
  clients := h.clients
  accepts := by
    show s.accepts = t.accepts + p.unpushed
    rw [hunpushed]
    exact h.accepts
  nextClientID := by
    show s.nextClientID = t.nextClientID + UInt8.ofNat p.unpushed
    rw [hunpushed]
    exact h.nextClientID
  acceptor := hacceptor
  handler := hhandler
  clientID := fun n hn => h.clientID n (habsent n hn)
  unread := h.unread
  issued := by
    intro r
    rw [hlate, hearly]
    exact h.issued r
  unused := h.unused
  undelivered := h.undelivered

theorem sim_acceptNotify {g : Progress} {s : State} {t : Net} (h : Sim g s t)
    {new : ClientHandler} (hpc : s.acceptor = .locking new) (hmutex : s.mutex = none) :
    Sim .fresh { s with mutex := some (s.notifyClients .acceptClients),
                        acceptor := .notifying new } t := by
  have hacceptor := h.acceptor
  rw [place_none hmutex, hpc] at hacceptor
  refine h.relock (f := s.handler) ?_ ?_ ?_ (fun n hn => hn) ?_ ?_
  · rw [hpc]
    rfl
  · generalize t.acceptor = q at hacceptor ⊢
    cases hacceptor
    have hplace := AcceptSim.notifying (t := t) new
    rw [h.clients] at hplace
    exact hplace
  · intro n
    have hn := h.handler n
    rw [place_none hmutex] at hn
    rw [place_of_ne rfl (by simp [State.notifyClients])]
    exact hn
  · intro r
    rw [late_none hmutex]
    rfl
  · intro r
    rw [early_none hmutex]
    rfl

/-- A thread of `handleClient` takes the lock to send. -/
theorem Sim.enter {g : Progress} {s : State} {t : Net} (h : Sim g s t) (hmutex : s.mutex = none)
    {n : ℕ} {buffer : List UInt8} {todo : List ℕ} {q : HandlerPoint}
    (hq : HandlerSim s.clients (s.clientID n) (.before buffer todo) q (t.conn n).handler)
    (hn : s.handler n ≠ .absent) :
    Sim .fresh { s with mutex := some ⟨.handleClient n, buffer, todo, none⟩,
                        handler := Function.update s.handler n q } t := by
  refine h.relock (p := s.acceptor) rfl ?_ ?_ ?_ ?_ ?_
  · have hacceptor := h.acceptor
    rw [place_none hmutex] at hacceptor
    rw [place_of_ne rfl (by simp)]
    exact hacceptor
  · intro m
    by_cases heq : m = n
    · subst heq
      rw [Function.update_self, Progress.fresh, place_before rfl]
      exact hq
    · have hm := h.handler m
      rw [place_none hmutex] at hm
      rw [Function.update_of_ne heq,
        place_of_ne rfl fun he => heq (Thread.handleClient.inj he).symm]
      exact hm
  · intro m hm
    by_cases heq : m = n
    · subst heq
      exact hn
    · rw [Function.update_of_ne heq] at hm
      exact hm
  · intro r
    rw [late_none hmutex]
    rfl
  · intro r
    rw [early_none hmutex]
    rfl

/-- The loop comes to its next socket. -/
theorem sim_sendLength {g : Progress} {s : State} {t : Net} (h : Sim g s t) {holder : Thread}
    {buffer : List UInt8} {r : ℕ} {rest : List ℕ}
    (hmutex : s.mutex = some ⟨holder, buffer, r :: rest, none⟩) :
    Sim ⟨g.served ++ [r], g.committed⟩
      { s.putLength buffer r with mutex := some ⟨holder, buffer, rest, some r⟩ } t := by
  have hplace (thread : Thread) : Progress.place ⟨g.served ++ [r], g.committed⟩
      { s.putLength buffer r with mutex := some ⟨holder, buffer, rest, some r⟩ } thread =
      g.place s thread := by
    simp [Progress.place, hmutex]
  refine ⟨h.clients, h.accepts, h.nextClientID, ?_, ?_, h.clientID, h.unread, ?_, h.unused,
    h.undelivered⟩
  · rw [hplace]
    exact h.acceptor
  · intro n
    rw [hplace]
    exact h.handler n
  · intro q
    have hq := h.issued q
    show Function.update s.issued r (s.issued r ++ [buffer]) q ++ _ = _
    cases hc : g.committed with
    | false =>
        -- one more message that only the loop has sent
        simp only [Progress.late, Progress.early, hmutex, hc, Bool.false_eq_true, if_false,
          List.append_nil, List.count_append] at hq ⊢
        by_cases heq : q = r
        · subst heq
          rw [Function.update_self, hq, List.count_singleton_self, List.replicate_succ',
            List.append_assoc]
        · rw [Function.update_of_ne heq, hq, List.count_singleton,
            if_neg (by simpa using fun he => heq he.symm), Nat.add_zero]
    | true =>
        -- one message less that only the abstract server has sent
        simp only [Progress.late, Progress.early, hmutex, hc, if_true, List.append_nil] at hq ⊢
        by_cases heq : q = r
        · subst heq
          rw [Function.update_self, ← hq, List.count_cons_self, List.replicate_succ,
            List.append_assoc, List.singleton_append]
        · rw [Function.update_of_ne heq, ← hq, List.count_cons_of_ne fun he => heq he.symm]

theorem sim_sendBody {g : Progress} {s : State} {t : Net} (h : Sim g s t) {holder : Thread}
    {buffer : List UInt8} {r : ℕ} {rest : List ℕ}
    (hmutex : s.mutex = some ⟨holder, buffer, rest, some r⟩) :
    Sim g { s.putBody buffer r with mutex := some ⟨holder, buffer, rest, none⟩ } t := by
  refine ⟨h.clients, h.accepts, h.nextClientID, ?_, ?_, h.clientID, h.unread, ?_, h.unused,
    h.undelivered⟩
  · have hacceptor := h.acceptor
    rw [Progress.place, hmutex] at hacceptor
    exact hacceptor
  · intro n
    have hn := h.handler n
    rw [Progress.place, hmutex] at hn
    exact hn
  · intro q
    have hq := h.issued q
    rw [Progress.late, Progress.early, hmutex] at hq
    exact hq

/-- The lock is released after the abstract step. -/
theorem sim_unlock {served : List ℕ} {s : State} {t : Net} (h : Sim ⟨served, true⟩ s t)
    {holder : Thread} {buffer : List UInt8} (hmutex : s.mutex = some ⟨holder, buffer, [], none⟩) :
    Sim .fresh (s.release holder) t := by
  have hlate (r : ℕ) : Progress.late ⟨served, true⟩ s r = [] := by
    rw [Progress.late, hmutex]
    rfl
  have hearly (r : ℕ) : Progress.early ⟨served, true⟩ s r = [] := by
    rw [Progress.early, hmutex]
    rfl
  have hacceptor := h.acceptor
  cases holder with
  | acceptClients =>
      rw [place_past hmutex] at hacceptor
      generalize hp : s.acceptor = p at hacceptor
      generalize hq : t.acceptor = q at hacceptor
      cases hacceptor with
      | announced new =>
        refine h.relock (f := s.handler) ?_ ?_ ?_ (fun n hn => hn) (fun r => (hlate r).symm)
          fun r => (hearly r).symm
        · rw [hp]
          rfl
        · rw [hp, hq]
          exact .spawning new
        · intro n
          have hn := h.handler n
          rw [place_of_ne hmutex (by simp)] at hn
          exact hn
  | handleClient n =>
      rw [place_of_ne hmutex (by simp)] at hacceptor
      refine h.relock (p := s.acceptor) rfl hacceptor ?_ ?_ (fun r => (hlate r).symm)
        fun r => (hearly r).symm
      · intro m
        have hm := h.handler m
        by_cases heq : m = n
        · subst heq
          rw [place_past hmutex] at hm
          rw [Function.update_self]
          generalize hp : s.handler m = p at hm
          generalize hq : (t.conn m).handler = q at hm
          cases hm with
          | broadcasted => exact .receiving
          | announced => exact .ended
        · rw [place_of_ne hmutex fun he => heq (Thread.handleClient.inj he).symm] at hm
          rw [Function.update_of_ne heq]
          exact hm
      · intro m hm
        by_cases heq : m = n
        · subst heq
          intro habs
          rw [Function.update_self, habs] at hm
          exact hm rfl
        · rw [Function.update_of_ne heq] at hm
          exact hm

/-! ## One step -/

/-- The abstract steps that one concrete step can perform. -/
inductive Performs : Action → List HobbitSynchrony.Action → Prop where
  | accept (ipAddress : IpText) (sinPort : UInt16) : Performs (.accept ipAddress sinPort) []
  | push (ipAddress : IpText) (sinPort : UInt16) :
      Performs .push [.accept ipAddress sinPort none]
  | sendIDLength : Performs .sendIDLength [.sendID]
  /-- The loop under the lock has served the new socket already. -/
  | overtaken {thread : Thread} {b : HobbitSynchrony.Action} (hb : Commits thread b) :
      Performs .sendIDLength [b, .sendID]
  | sendIDBody : Performs .sendIDBody []
  | acceptNotify : Performs .acceptNotify []
  | spawn : Performs .spawn [.spawn]
  | receive (n : ℕ) (body : List UInt8) :
      Performs (.receive n body) [.clientSend n body, .read n]
  | broadcast (n : ℕ) : Performs (.broadcast n) []
  | hangup (n : ℕ) : Performs (.hangup n) [.hangup n]
  | erase (n : ℕ) : Performs (.erase n) [.remove n]
  | exitNotify (n : ℕ) : Performs (.exitNotify n) []
  | sendLength : Performs .sendLength []
  | sendBody : Performs .sendBody []
  /-- The abstract step has been taken already. -/
  | unlock : Performs .unlock []
  | commit {thread : Thread} {b : HobbitSynchrony.Action} (hb : Commits thread b) :
      Performs .unlock [b]

/-- The two models agree. The abstract step comes before the release of the lock
only if a client ID message has been begun meanwhile. -/
def Refines (s : State) (t : Net) : Prop :=
  ∃ g, Sim g s t ∧ (g.committed = true → s.acceptor.Introduced)

/-- The sockets of a loop are different ones. -/
theorem Sim.nodup {served : List ℕ} {s : State} {t : Net} {l : Loop}
    (h : Sim ⟨served, false⟩ s t) (hw : t.WellFormed) (hmutex : s.mutex = some l) :
    (served ++ l.todo).Nodup := by
  obtain ⟨holder, buffer, todo, half⟩ := l
  have hsockets : (notified s.clients).Nodup := h.clients ▸ hw.sockets
  cases holder with
  | acceptClients =>
      have hacceptor := h.acceptor
      rw [place_before hmutex] at hacceptor
      rw [hacceptor.of_before.2.1, h.clients]
      exact hsockets
  | handleClient n =>
      have hn := h.handler n
      rw [place_before hmutex] at hn
      rcases hn.of_before with ⟨msg, -, hto, -⟩ | ⟨-, hto, -⟩
      · rw [hto]
        exact (relayedTo_sublist _ _).nodup hsockets
      · rw [hto]
        exact hsockets

/-- The length of the client ID message, under any lock. -/
theorem refines_sendIDLength {s : State} {t : Net} (h : Refines s t) (hw : t.WellFormed)
    {new : ClientHandler} (hpc : s.acceptor = .idLength new) :
    ∃ bs t', Performs .sendIDLength bs ∧ Run HobbitSynchrony.Step t bs t' ∧
      Refines { s.putLength (idBuffer new) new.socket with acceptor := .idBody new } t' := by
  rcases h with ⟨⟨served, committed⟩, hsim, hintro⟩
  cases committed with
  | true =>
      have hfalse := hintro rfl
      rw [hpc] at hfalse
      exact hfalse.elim
  | false =>
      cases hmutex : s.mutex with
      | none =>
          rcases sim_sendIDLength hsim hw hpc (late_none hmutex _) (early_none hmutex _) with
            ⟨t', hstep, hsim'⟩
          exact ⟨_, t', .sendIDLength, Run.single hstep, _, hsim', fun _ => trivial⟩
      | some l =>
          by_cases hserved : new.socket ∈ served
          · -- the abstract loop has to come before the client ID message
            rcases hsim.commit hw hmutex with ⟨b, t₁, hb, hstep₁, hsim₁⟩
            have hcount : l.todo.count new.socket = 0 :=
              List.count_eq_zero.2 ((List.nodup_append'.1 (hsim.nodup hw hmutex)).2.2 hserved)
            have hlate : Progress.late ⟨served, true⟩ s new.socket = [] := by
              simp [Progress.late, hmutex, hcount]
            have hearly : Progress.early ⟨served, true⟩ s new.socket = [] := by
              simp [Progress.early, hmutex]
            rcases sim_sendIDLength hsim₁ (hw.step hstep₁) hpc hlate hearly with
              ⟨t', hstep, hsim'⟩
            exact ⟨_, t', .overtaken hb, (Run.single hstep₁).append (Run.single hstep), _, hsim',
              fun _ => trivial⟩
          · -- the loop comes to the socket later, in both models
            have hlate : Progress.late ⟨served, false⟩ s new.socket = [] := by
              simp [Progress.late, hmutex]
            have hearly : Progress.early ⟨served, false⟩ s new.socket = [] := by
              simp [Progress.early, hmutex, List.count_eq_zero.2 hserved]
            rcases sim_sendIDLength hsim hw hpc hlate hearly with ⟨t', hstep, hsim'⟩
            exact ⟨_, t', .sendIDLength, Run.single hstep, _, hsim', fun _ => trivial⟩

/-- The release of the lock; the abstract step is taken now if it was not before. -/
theorem refines_unlock {s : State} {t : Net} (h : Refines s t) (hw : t.WellFormed)
    {holder : Thread} {buffer : List UInt8} (hmutex : s.mutex = some ⟨holder, buffer, [], none⟩) :
    ∃ bs t', Performs .unlock bs ∧ Run HobbitSynchrony.Step t bs t' ∧
      Refines (s.release holder) t' := by
  rcases h with ⟨⟨served, committed⟩, hsim, -⟩
  cases committed with
  | true =>
      exact ⟨[], t, .unlock, Run.nil, .fresh, sim_unlock hsim hmutex, fun hc => by cases hc⟩
  | false =>
      rcases hsim.commit hw hmutex with ⟨b, t', hb, hstep, hsim'⟩
      exact ⟨[b], t', .commit hb, Run.single hstep, .fresh, sim_unlock hsim' hmutex,
        fun hc => by cases hc⟩

/-- Every step of the sends is matched by steps of the frames. -/
theorem sim_step {s s' : State} {a : Action} {t : Net} (h : Refines s t) (hw : t.WellFormed)
    (hstep : step s a = some s') :
    ∃ bs t', Performs a bs ∧ Run HobbitSynchrony.Step t bs t' ∧ Refines s' t' := by
  have hrefines := h
  rcases h with ⟨g, hsim, hintro⟩
  cases a <;> simp only [step] at hstep
  case accept ipAddress sinPort =>
    split at hstep
    next hpc =>
      cases hstep
      rw [hpc] at hintro
      exact ⟨[], t, .accept _ _, Run.nil, g, sim_accept hsim hpc ipAddress sinPort,
        fun hc => (hintro hc).elim⟩
    next => cases hstep
  case push =>
    split at hstep
    next new hpc hmutex =>
      cases hstep
      rw [hpc] at hintro
      rcases sim_push hsim hw hpc hmutex with ⟨ipAddress, sinPort, t', hb, hsim'⟩
      exact ⟨_, t', .push _ _, Run.single hb, g, hsim', fun hc => (hintro hc).elim⟩
    next => cases hstep
  case sendIDLength =>
    split at hstep
    next new hpc =>
      cases hstep
      exact refines_sendIDLength hrefines hw hpc
    next => cases hstep
  case sendIDBody =>
    split at hstep
    next new hpc =>
      cases hstep
      exact ⟨[], t, .sendIDBody, Run.nil, g, sim_sendIDBody hsim hpc, fun _ => trivial⟩
    next => cases hstep
  case acceptNotify =>
    split at hstep
    next new hpc hmutex =>
      cases hstep
      exact ⟨[], t, .acceptNotify, Run.nil, _, sim_acceptNotify hsim hpc hmutex,
        fun hc => by cases hc⟩
    next => cases hstep
  case spawn =>
    split at hstep
    next new hpc =>
      cases hstep
      rw [hpc] at hintro
      rcases sim_spawn hsim hw hpc with ⟨t', hb, hsim'⟩
      exact ⟨_, t', .spawn, Run.single hb, g, hsim', fun hc => (hintro hc).elim⟩
    next => cases hstep
  case receive n body =>
    rcases sim_receive hsim hw n body (by simpa only [step] using hstep) with
      ⟨t', hrun, hsim', hacceptor⟩
    exact ⟨_, t', .receive n body, hrun, g, hsim', hacceptor ▸ hintro⟩
  case broadcast n =>
    split at hstep
    next msg hpc hmutex =>
      cases hstep
      have hn := hsim.handler n
      rw [place_none hmutex, hpc] at hn
      refine ⟨[], t, .broadcast n, Run.nil, .fresh, hsim.enter hmutex ?_ (by rw [hpc]; simp),
        fun hc => by cases hc⟩
      generalize (t.conn n).handler = q at hn ⊢
      cases hn
      exact .broadcasting msg
    next => cases hstep
  case hangup n =>
    split at hstep
    next hpc =>
      cases hstep
      rcases sim_hangup hsim hpc with ⟨t', hb, hsim'⟩
      exact ⟨_, t', .hangup n, Run.single hb, g, hsim', hintro⟩
    next => cases hstep
  case erase n =>
    split at hstep
    next hpc hmutex =>
      cases hstep
      rcases sim_erase hsim hpc hmutex with ⟨t', hb, hsim'⟩
      exact ⟨_, t', .erase n, Run.single hb, g, hsim', hintro⟩
    next => cases hstep
  case exitNotify n =>
    split at hstep
    next hpc hmutex =>
      cases hstep
      have hn := hsim.handler n
      rw [place_none hmutex, hpc] at hn
      refine ⟨[], t, .exitNotify n, Run.nil, .fresh, hsim.enter hmutex ?_ (by rw [hpc]; simp),
        fun hc => by cases hc⟩
      generalize (t.conn n).handler = q at hn ⊢
      cases hn
      exact .notifying
    next => cases hstep
  case sendLength =>
    split at hstep
    next holder buffer r rest hmutex =>
      cases hstep
      exact ⟨[], t, .sendLength, Run.nil, _, sim_sendLength hsim hmutex, hintro⟩
    next => cases hstep
  case sendBody =>
    split at hstep
    next holder buffer rest r hmutex =>
      cases hstep
      exact ⟨[], t, .sendBody, Run.nil, g, sim_sendBody hsim hmutex, hintro⟩
    next => cases hstep
  case unlock =>
    split at hstep
    next holder buffer hmutex =>
      cases hstep
      exact refines_unlock hrefines hw hmutex
    next => cases hstep

/-! ## Whole runs -/

theorem refines_start : Refines State.start Net.start := by
  refine ⟨.fresh, ?_, fun hc => by cases hc⟩
  exact ⟨rfl, rfl, rfl, .accepting, fun n => .absent, fun n hn => absurd rfl hn, fun n => rfl,
    fun r => rfl, fun n hn => rfl, fun n hn => absurd hn (Nat.not_lt_zero n)⟩

/-- What is written on a socket, with the body of a message that is half sent:
the frames of the issued messages. -/
theorem Inv.wire_pending {s : State} (hs : Inv s) (r : ℕ) :
    s.wire r ++ (s.pending r).flatten = (s.issued r).flatMap frameBytes := by
  rcases hs.wire r with ⟨whole, hissued, hwire⟩
  rw [hwire, hissued, List.flatMap_append, List.append_assoc]
  match hp : s.pending r, hs.one r with
  | [], _ => rfl
  | [b], _ => simp [frameBytes]

/-- While no thread holds the lock both servers have issued the same messages. -/
theorem Refines.issued {s : State} {t : Net} (h : Refines s t) (hmutex : s.mutex = none) (r : ℕ) :
    s.issued r = (t.conn r).stream.map Frame.body := by
  rcases h with ⟨g, hsim, -⟩
  have hr := hsim.issued r
  rwa [late_none hmutex, early_none hmutex, List.append_nil, List.append_nil] at hr

/-- A run of the sends, from a simulating state to a simulating state. -/
theorem refines_run {as : List Action} {s : State} (hrun : Run (ofFn step) State.start as s) :
    ∃ bss t, List.Forall₂ Performs as bss ∧ Run HobbitSynchrony.Step Net.start bss.flatten t ∧
      Refines s t ∧ t.WellFormed := by
  refine Run.simulation (R := fun s t => Refines s t ∧ t.WellFormed) ?_
    ⟨refines_start, Net.wellFormed_start⟩ hrun
  rintro s a s' t hstep ⟨hR, hw⟩
  rcases sim_step hR hw hstep with ⟨bs, t', hb, hrun', hR'⟩
  exact ⟨bs, t', hb, hrun', hR', hrun'.invariant (fun _ _ _ hs hw => hw.step hs) hw⟩

/-- The sends of a run in which no length cuts a message are those of a run of
the frames: the same steps of the threads in the same order, and, whenever the
lock is free, the same registered clients and on every socket the bytes of the
same frames, up to the body of a client ID message that is half sent. -/
theorem sends_refine {as : List Action} {s : State}
    (hrun : Run (Guarded (ofFn step) Clear) State.start as s) :
    ∃ bss t, List.Forall₂ Performs as bss ∧ Run HobbitSynchrony.Step Net.start bss.flatten t ∧
      Refines s t ∧ (s.mutex = none → t.clients = s.clients ∧ ∀ r,
        s.wire r ++ (s.pending r).flatten =
          (t.conn r).stream.flatMap fun f => frameBytes f.body) := by
  have hinv : Inv s := hrun.invariant (fun _ _ _ h hs => inv_step hs h.2 h.1) inv_start
  rcases refines_run (hrun.mono fun _ _ _ h => h.1) with ⟨bss, t, hb, hrun', hR, -⟩
  refine ⟨bss, t, hb, hrun', hR, fun hmutex => ⟨?_, fun r => ?_⟩⟩
  · rcases hR with ⟨g, hsim, -⟩
    exact hsim.clients
  · rw [hinv.wire_pending, hR.issued hmutex, List.flatMap_map]

/-- The broadcast of the first client reaches the socket of the second one
before its client ID message, which goes out while the lock is held. -/
def overtakenID : List Action :=
  joinSends ++ firstNotified ++ [.accept localhost 0xF0D2, .push, .receive 0 [2, 0, 7],
    .broadcast 0, .sendLength, .sendBody, .sendIDLength, .sendIDBody, .unlock]

theorem sends_refine_overtaken : ∃ s, Run (Guarded (ofFn step) Clear) State.start overtakenID s ∧
    s.wire 1 = [0, 0, 0, 3, 2, 1, 7] ++ [0, 0, 0, 2, 5, 2] ∧
    ∃ bss t, List.Forall₂ Performs overtakenID bss ∧
      Run HobbitSynchrony.Step Net.start bss.flatten t ∧
      Refines s t ∧ (s.mutex = none → t.clients = s.clients ∧ ∀ r,
        s.wire r ++ (s.pending r).flatten =
          (t.conn r).stream.flatMap fun f => frameBytes f.body) := by
  have hrun : Run (Guarded (ofFn step) Clear) State.start overtakenID _ :=
    run_of_isSome (by decide)
  exact ⟨_, hrun, by decide, sends_refine hrun⟩

end HobbitSynchrony.Sends
