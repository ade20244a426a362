import HobbitSynchrony.SocketSends

/-! # Sends go to open sockets

A thread of `handleClient` closes its socket after it has removed its handler
and told the others. Nothing keeps the other threads from sending to a closed
socket but the lock: a loop goes over the handlers that are registered while it
holds `clientsMutex`, and a removal needs the lock too. IDs that have come round
do no harm here, as a removal by ID takes the own handler in any case.

* `Removed`: the thread has removed its handler, and closes or has closed;
* `Sockets`: the invariant, over all steps of all threads;
* `sends_to_open`: no step sends to the socket of such a thread.
-/

namespace HobbitSynchrony.Sends

open Transition

/-- The thread has removed its handler; its socket is about to be closed, or
it is closed. -/
def HandlerPoint.Removed : HandlerPoint → Prop
  | .lockingNotify => True
  | .notifying => True
  | .ended => True
  | _ => False

/-- The socket a step sends to. -/
def State.target (s : State) : Action → Option ℕ
  | .sendIDLength =>
    match s.acceptor with
    | .idLength h => some h.socket
    | _ => none
  | .sendIDBody =>
    match s.acceptor with
    | .idBody h => some h.socket
    | _ => none
  | .sendLength =>
    match s.mutex with
    | some ⟨_, _, r :: _, none⟩ => some r
    | _ => none
  | .sendBody =>
    match s.mutex with
    | some ⟨_, _, _, some r⟩ => some r
    | _ => none
  | _ => none

/-- The handler that `acceptClients` is setting up. -/
def AcceptPoint.current : AcceptPoint → Option ClientHandler
  | .accepting => none
  | .pushing h => some h
  | .idLength h => some h
  | .idBody h => some h
  | .locking h => some h
  | .notifying h => some h
  | .spawning h => some h

/-- The sockets a critical section still sends to. -/
def Loop.recipients (l : Loop) : List ℕ := l.todo ++ l.half.toList

/-- The ID of the connection with number `n`. -/
def assignedID (n : ℕ) : UInt8 := UInt8.ofNat (n + 1)

/-- How handlers, sockets and threads belong together. -/
structure Sockets (s : State) : Prop where
  nextClientID : s.nextClientID = assignedID s.accepts
  registered : ∀ h ∈ s.clients, h.clientID = assignedID h.socket ∧ h.socket < s.accepts ∧
    ¬ (s.handler h.socket).Removed
  current : ∀ h, s.acceptor.current = some h → h.clientID = assignedID h.socket ∧
    h.socket < s.accepts ∧ s.handler h.socket = .absent
  clientID : ∀ n, s.handler n ≠ .absent → s.clientID n = assignedID n
  unused : ∀ n, s.accepts ≤ n → s.handler n = .absent
  recipients : ∀ l, s.mutex = some l → ∀ r ∈ l.recipients, ∃ h ∈ s.clients, h.socket = r

theorem sockets_start : Sockets State.start where
  nextClientID := rfl
  registered := fun h hh => absurd hh List.not_mem_nil
  current := fun h hh => by cases hh
  clientID := fun n hn => absurd rfl hn
  unused := fun n hn => rfl
  recipients := fun l hl => by cases hl

/-- A step that registers, removes and starts nothing. -/
theorem Sockets.congr {s s' : State} (hs : Sockets s) (hclients : s'.clients = s.clients)
    (hnext : s'.nextClientID = s.nextClientID) (haccepts : s'.accepts = s.accepts)
    (hid : s'.clientID = s.clientID)
    (hcurrent : ∀ h, s'.acceptor.current = some h → s.acceptor.current = some h)
    (habsent : ∀ n, s'.handler n = .absent ↔ s.handler n = .absent)
    (hremoved : ∀ n, (s'.handler n).Removed → (s.handler n).Removed)
    (hrecipients : ∀ l, s'.mutex = some l → ∀ r ∈ l.recipients, ∃ h ∈ s.clients, h.socket = r) :
    Sockets s' where
  nextClientID := by
    rw [hnext, haccepts]
    exact hs.nextClientID
  registered := by
    intro h hh
    rw [hclients] at hh
    rw [haccepts]
    rcases hs.registered h hh with ⟨heq, hlt, hopen⟩
    exact ⟨heq, hlt, fun hr => hopen (hremoved _ hr)⟩
  current := by
    intro h hh
    rw [haccepts]
    rcases hs.current h (hcurrent h hh) with ⟨heq, hlt, habs⟩
    exact ⟨heq, hlt, (habsent _).2 habs⟩
  clientID := by
    intro n hn
    rw [hid]
    exact hs.clientID n fun habs => hn ((habsent n).2 habs)
  unused := by
    intro n hn
    rw [haccepts] at hn
    exact (habsent n).2 (hs.unused n hn)
  recipients := by
    rw [hclients]
    exact hrecipients

/-- One thread moves on without a removal. -/
theorem Sockets.thread {s : State} (hs : Sockets s) {n : ℕ} {q : HandlerPoint} {m : Option Loop}
    (hn : s.handler n ≠ .absent) (hq : q ≠ .absent) (hremoved : q.Removed → (s.handler n).Removed)
    (hrecipients : ∀ l, m = some l → ∀ r ∈ l.recipients, ∃ h ∈ s.clients, h.socket = r) :
    Sockets { s with handler := Function.update s.handler n q, mutex := m } := by
  refine hs.congr rfl rfl rfl rfl (fun _ h => h) ?_ ?_ hrecipients
  · intro k
    by_cases hk : k = n
    · subst hk
      simp [hn, hq]
    · simp [hk]
  · intro k hr
    by_cases hk : k = n
    · subst hk
      exact hremoved (by simpa using hr)
    · simpa [hk] using hr

/-- The recipients of a roster are registered. -/
theorem recipients_notifyClients (s : State) (holder : Thread) :
    ∀ r ∈ (s.notifyClients holder).recipients, ∃ h ∈ s.clients, h.socket = r := by
  intro r hr
  simpa [Loop.recipients, State.notifyClients] using hr

/-- So are those of a relayed message. -/
theorem recipients_broadcastMessage (s : State) (holder : Thread) (msg : BaseMessage UInt8)
    (excludeID : UInt8) :
    ∀ r ∈ (s.broadcastMessage holder msg excludeID).recipients, ∃ h ∈ s.clients, h.socket = r := by
  intro r hr
  simp only [Loop.recipients, State.broadcastMessage, Option.toList_none, List.append_nil] at hr
  rcases List.mem_map.1 hr with ⟨h, hh, rfl⟩
  exact ⟨h, (List.mem_filter.1 hh).1, rfl⟩

/-! ## The steps that change the handlers -/

theorem sockets_accept {s : State} (hs : Sockets s) (ipAddress : IpText) (port : UInt16) :
    Sockets { s with
      nextClientID := s.nextClientID + 1
      accepts := s.accepts + 1
      acceptor := .pushing ⟨s.accepts, s.nextClientID, ipAddress, port⟩ } := by
  constructor
  case nextClientID =>
    show s.nextClientID + 1 = _
    rw [hs.nextClientID, assignedID, assignedID, ← UInt8.ofNat_one, ← UInt8.ofNat_add]
  case registered =>
    intro h hh
    rcases hs.registered h hh with ⟨heq, hlt, hopen⟩
    exact ⟨heq, Nat.lt_succ_of_lt hlt, hopen⟩
  case current =>
    intro h hh
    cases hh
    exact ⟨hs.nextClientID, Nat.lt_succ_self _, hs.unused _ le_rfl⟩
  case clientID => exact hs.clientID
  case unused =>
    intro n hn
    exact hs.unused n (Nat.le_of_succ_le hn)
  case recipients => exact hs.recipients

theorem sockets_push {s : State} (hs : Sockets s) {new : ClientHandler}
    (hpc : s.acceptor = .pushing new) (hmutex : s.mutex = none) :
    Sockets { s with clients := s.clients ++ [new], acceptor := .idLength new } := by
  rcases hs.current new (by rw [hpc]; rfl) with ⟨heq, hlt, habs⟩
  constructor
  case nextClientID => exact hs.nextClientID
  case registered =>
    intro h hh
    rcases List.mem_append.1 hh with hh | hh
    · exact hs.registered h hh
    · obtain rfl := List.mem_singleton.1 hh
      refine ⟨heq, hlt, fun hr => ?_⟩
      have hr' : (s.handler h.socket).Removed := hr
      rw [habs] at hr'
      exact hr'
  case current =>
    intro h hh
    cases hh
    exact ⟨heq, hlt, habs⟩
  case clientID => exact hs.clientID
  case unused => exact hs.unused
  case recipients =>
    intro l hl
    have hnone : s.mutex = some l := hl
    rw [hmutex] at hnone
    cases hnone

theorem sockets_spawn {s : State} (hs : Sockets s) {new : ClientHandler}
    (hpc : s.acceptor = .spawning new) :
    Sockets { s with
      handler := Function.update s.handler new.socket .receiving
      clientID := Function.update s.clientID new.socket new.clientID
      acceptor := .accepting } := by
  rcases hs.current new (by rw [hpc]; rfl) with ⟨heq, hlt, habs⟩
  constructor
  case nextClientID => exact hs.nextClientID
  case registered =>
    intro h hh
    rcases hs.registered h hh with ⟨hid, hlt', hopen⟩
    refine ⟨hid, hlt', fun hr => ?_⟩
    by_cases hsock : h.socket = new.socket
    · simp [hsock, HandlerPoint.Removed] at hr
    · exact hopen (by simpa [hsock] using hr)
  case current =>
    intro h hh
    cases hh
  case clientID =>
    intro n hn
    by_cases hsock : n = new.socket
    · subst hsock
      simpa using heq
    · simpa [hsock] using hs.clientID n (by simpa [hsock] using hn)
  case unused =>
    intro n hn
    have hle : s.accepts ≤ n := hn
    have hne : n ≠ new.socket := by omega
    simpa [hne] using hs.unused n hle
  case recipients => exact hs.recipients

/-- The removal by ID takes the thread's own handler, whoever else has the ID. -/
theorem sockets_erase {s : State} (hs : Sockets s) {n : ℕ} (hpc : s.handler n = .erasing)
    (hmutex : s.mutex = none) :
    Sockets { s with
      clients := s.clients.filter fun ch => ch.clientID != s.clientID n
      handler := Function.update s.handler n .lockingNotify } := by
  have hn : s.handler n ≠ .absent := by
    rw [hpc]
    simp
  constructor
  case nextClientID => exact hs.nextClientID
  case registered =>
    intro h hh
    rcases List.mem_filter.1 hh with ⟨hmem, hother⟩
    rcases hs.registered h hmem with ⟨hid, hlt, hopen⟩
    refine ⟨hid, hlt, fun hr => ?_⟩
    have hne : h.socket ≠ n := by
      rintro rfl
      rw [hid, hs.clientID _ hn] at hother
      simp at hother
    exact hopen (by simpa [hne] using hr)
  case current =>
    intro h hh
    rcases hs.current h hh with ⟨hid, hlt, habs⟩
    have hne : h.socket ≠ n := by
      rintro rfl
      exact hn habs
    exact ⟨hid, hlt, by simpa [hne] using habs⟩
  case clientID =>
    intro m hm
    refine hs.clientID m fun habs => ?_
    have hne : m ≠ n := by
      rintro rfl
      exact hn habs
    simp [hne, habs] at hm
  case unused =>
    intro m hm
    have hne : m ≠ n := by
      rintro rfl
      exact hn (hs.unused m hm)
    simpa [hne] using hs.unused m hm
  case recipients =>
    intro l hl
    have hnone : s.mutex = some l := hl
    rw [hmutex] at hnone
    cases hnone

/-- The end of a critical section removes nothing. -/
theorem sockets_release {s : State} (hs : Sockets s) (holder : Thread) :
    Sockets (s.release holder) := by
  cases holder with
  | acceptClients =>
      refine hs.congr rfl rfl rfl rfl ?_ (fun _ => Iff.rfl) (fun _ h => h)
        fun l hl => by cases hl
      intro h hh
      simp only [State.release] at hh
      split at hh
      next hpc => rw [hpc]; exact hh
      next => exact hh
  | handleClient n =>
      refine hs.congr rfl rfl rfl rfl (fun _ h => h) ?_ ?_ fun l hl => by cases hl
      · intro k
        by_cases hk : k = n
        · subst hk
          simp only [State.release, Function.update_self]
          split
          next hpc => simp [hpc]
          next hpc => simp [hpc]
          next => rfl
        · simp [State.release, hk]
      · intro k hr
        by_cases hk : k = n
        · subst hk
          simp only [State.release, Function.update_self] at hr
          split at hr
          next => exact hr.elim
          next hpc => rw [hpc]; trivial
          next => exact hr
        · simpa [State.release, hk] using hr

/-! ## Every step -/

theorem sockets_step {s s' : State} {a : Action} (hs : Sockets s) (h : step s a = some s') :
    Sockets s' := by
  cases a <;> simp only [step] at h
  case accept ipAddress sinPort =>
    split at h
    next => cases h; exact sockets_accept hs _ _
    next => cases h
  case push =>
    split at h
    next new hpc hmutex => cases h; exact sockets_push hs hpc hmutex
    next => cases h
  case sendIDLength =>
    split at h
    next new hpc =>
      cases h
      exact hs.congr rfl rfl rfl rfl (fun g hg => by rw [hpc]; exact hg) (fun _ => Iff.rfl)
        (fun _ h => h) hs.recipients
    next => cases h
  case sendIDBody =>
    split at h
    next new hpc =>
      cases h
      exact hs.congr rfl rfl rfl rfl (fun g hg => by rw [hpc]; exact hg) (fun _ => Iff.rfl)
        (fun _ h => h) hs.recipients
    next => cases h
  case acceptNotify =>
    split at h
    next new hpc hmutex =>
      cases h
      refine hs.congr rfl rfl rfl rfl (fun g hg => by rw [hpc]; exact hg) (fun _ => Iff.rfl)
        (fun _ h => h) fun l hl => ?_
      cases hl
      exact recipients_notifyClients s _
    next => cases h
  case spawn =>
    split at h
    next new hpc => cases h; exact sockets_spawn hs hpc
    next => cases h
  case receive n body =>
    split at h
    next hpc =>
      split at h
      next =>
        split at h
        next => cases h; exact hs
        next msg hmsg =>
          cases h
          exact hs.thread (by rw [hpc]; simp) (by simp) (fun hr => hr.elim) hs.recipients
      next => cases h
    next => cases h
  case broadcast n =>
    split at h
    next msg hpc hmutex =>
      cases h
      refine hs.thread (by rw [hpc]; simp) (by simp) (fun hr => hr.elim) fun l hl => ?_
      cases hl
      exact recipients_broadcastMessage s _ msg _
    next => cases h
  case hangup n =>
    split at h
    next hpc =>
      cases h
      exact hs.thread (by rw [hpc]; simp) (by simp) (fun hr => hr.elim) hs.recipients
    next => cases h
  case erase n =>
    split at h
    next hpc hmutex => cases h; exact sockets_erase hs hpc hmutex
    next => cases h
  case exitNotify n =>
    split at h
    next hpc hmutex =>
      cases h
      refine hs.thread (by rw [hpc]; simp) (by simp) (fun _ => by rw [hpc]; trivial)
        fun l hl => ?_
      cases hl
      exact recipients_notifyClients s _
    next => cases h
  case sendLength =>
    split at h
    next holder buffer r rest hmutex =>
      cases h
      refine hs.congr rfl rfl rfl rfl (fun _ h => h) (fun _ => Iff.rfl) (fun _ h => h)
        fun l hl => ?_
      cases hl
      -- the socket goes from the front of the loop to the one that is half served
      have hold := hs.recipients _ hmutex
      intro q hq
      exact hold q (by simpa [Loop.recipients, or_comm] using hq)
    next => cases h
  case sendBody =>
    split at h
    next holder buffer rest r hmutex =>
      cases h
      refine hs.congr rfl rfl rfl rfl (fun _ h => h) (fun _ => Iff.rfl) (fun _ h => h)
        fun l hl => ?_
      cases hl
      have hold := hs.recipients _ hmutex
      intro q hq
      refine hold q (List.mem_append_left _ ?_)
      simpa [Loop.recipients] using hq
    next => cases h
  case unlock =>
    split at h
    next holder buffer hmutex => cases h; exact sockets_release hs holder
    next => cases h

/-- Only a send to it changes the bytes of a socket. -/
theorem wire_of_target {s s' : State} {a : Action} (h : step s a = some s') {r : ℕ}
    (hr : s.target a ≠ some r) : s'.wire r = s.wire r := by
  cases a <;> simp only [step] at h
  case sendIDLength =>
    split at h
    next new hpc =>
      cases h
      simp only [State.target, hpc, ne_eq, Option.some.injEq] at hr
      exact Function.update_of_ne (fun heq => hr heq.symm) _ _
    next => cases h
  case sendIDBody =>
    split at h
    next new hpc =>
      cases h
      simp only [State.target, hpc, ne_eq, Option.some.injEq] at hr
      exact Function.update_of_ne (fun heq => hr heq.symm) _ _
    next => cases h
  case sendLength =>
    split at h
    next holder buffer q rest hmutex =>
      cases h
      simp only [State.target, hmutex, ne_eq, Option.some.injEq] at hr
      exact Function.update_of_ne (fun heq => hr heq.symm) _ _
    next => cases h
  case sendBody =>
    split at h
    next holder buffer rest q hmutex =>
      cases h
      simp only [State.target, hmutex, ne_eq, Option.some.injEq] at hr
      exact Function.update_of_ne (fun heq => hr heq.symm) _ _
    next => cases h
  case receive n body =>
    split at h
    next =>
      split at h
      next => split at h <;> cases h <;> rfl
      next => cases h
    next => cases h
  case unlock =>
    split at h
    next holder buffer hmutex =>
      cases h
      cases holder <;> rfl
    next => cases h
  all_goals
    split at h
    next => cases h; rfl
    next => cases h

/-- The socket a step sends to has been accepted, and its thread has not removed
its handler. -/
theorem Sockets.target {s s' : State} {a : Action} (hs : Sockets s) (h : step s a = some s')
    {r : ℕ} (hr : s.target a = some r) : r < s.accepts ∧ ¬ (s.handler r).Removed := by
  have hcurrent : ∀ new, s.acceptor.current = some new →
      new.socket < s.accepts ∧ ¬ (s.handler new.socket).Removed := by
    intro new hnew
    rcases hs.current new hnew with ⟨-, hlt, habs⟩
    exact ⟨hlt, by rw [habs]; exact fun hr => hr⟩
  have hrecipient : ∀ l, s.mutex = some l → ∀ q ∈ l.recipients,
      q < s.accepts ∧ ¬ (s.handler q).Removed := by
    intro l hl q hq
    rcases hs.recipients l hl q hq with ⟨ch, hch, rfl⟩
    exact (hs.registered ch hch).2
  cases a <;> simp only [State.target] at hr
  case sendIDLength =>
    split at hr
    next new hpc => cases hr; exact hcurrent new (by rw [hpc]; rfl)
    next => cases hr
  case sendIDBody =>
    split at hr
    next new hpc => cases hr; exact hcurrent new (by rw [hpc]; rfl)
    next => cases hr
  case sendLength =>
    split at hr
    next holder buffer q rest hmutex =>
      cases hr
      exact hrecipient _ hmutex r (by simp [Loop.recipients])
    next => cases hr
  case sendBody =>
    split at hr
    next holder buffer rest q hmutex =>
      cases hr
      exact hrecipient _ hmutex r (by simp [Loop.recipients])
    next => cases hr
  all_goals cases hr

/-- A thread that has removed its handler does not come back. -/
theorem removed_step {s s' : State} {a : Action} (hs : Sockets s) (h : step s a = some s') {n : ℕ}
    (hn : (s.handler n).Removed) : (s'.handler n).Removed := by
  have hmove : ∀ {m : ℕ} {q : HandlerPoint}, (m = n → q.Removed) →
      (Function.update s.handler m q n).Removed := by
    intro m q hq
    by_cases hm : n = m
    · subst hm
      rw [Function.update_self]
      exact hq rfl
    · rw [Function.update_of_ne hm]
      exact hn
  cases a <;> simp only [step] at h
  case spawn =>
    split at h
    next new hpc =>
      cases h
      refine hmove ?_
      rintro rfl
      rw [(hs.current new (by rw [hpc]; rfl)).2.2] at hn
      exact hn.elim
    next => cases h
  case receive m body =>
    split at h
    next hpc =>
      split at h
      next =>
        split at h
        next => cases h; exact hn
        next =>
          cases h
          refine hmove ?_
          rintro rfl
          rw [hpc] at hn
          exact hn.elim
      next => cases h
    next => cases h
  case broadcast m =>
    split at h
    next msg hpc hmutex =>
      cases h
      refine hmove ?_
      rintro rfl
      rw [hpc] at hn
      exact hn.elim
    next => cases h
  case hangup m =>
    split at h
    next hpc =>
      cases h
      refine hmove ?_
      rintro rfl
      rw [hpc] at hn
      exact hn.elim
    next => cases h
  case erase m =>
    split at h
    next => cases h; exact hmove fun _ => trivial
    next => cases h
  case exitNotify m =>
    split at h
    next => cases h; exact hmove fun _ => trivial
    next => cases h
  case unlock =>
    split at h
    next holder buffer hmutex =>
      cases h
      cases holder with
      | acceptClients => exact hn
      | handleClient m =>
          refine hmove ?_
          rintro rfl
          split
          next hpc => rw [hpc] at hn; exact hn.elim
          next => trivial
          next => exact hn
    next => cases h
  all_goals
    split at h
    next => cases h; exact hn
    next => cases h

/-! ## Whole runs -/

/-- What a thread that has removed its handler can rely on. -/
def Frozen (n : ℕ) (bytes : List UInt8) (s : State) : Prop :=
  Sockets s ∧ (s.handler n).Removed ∧ s.wire n = bytes

/-- After a thread has removed its handler, and so before and after it closes
its socket, no thread sends anything to that socket, whatever the IDs. -/
theorem sends_to_open {as bs : List Action} {s s' : State}
    (hrun : Run (ofFn step) State.start as s) {n : ℕ} (hn : (s.handler n).Removed)
    (hrest : Run (ofFn step) s bs s') : (s'.handler n).Removed ∧ s'.wire n = s.wire n := by
  have hs : Sockets s := hrun.invariant (fun _ _ _ h hs => sockets_step hs h) sockets_start
  have hfrozen : Frozen n (s.wire n) s' := by
    refine hrest.invariant (fun t a t' hstep ht => ?_) ⟨hs, hn, rfl⟩
    rcases ht with ⟨hsock, hrem, hwire⟩
    refine ⟨sockets_step hsock hstep, removed_step hsock hstep hrem, ?_⟩
    rw [wire_of_target hstep fun htarget => (hsock.target hstep htarget).2 hrem]
    exact hwire
  exact hfrozen.2

/-- Two clients join and the second one leaves. -/
def leaveRun : List Action :=
  joinSends ++ firstNotified ++ joinSends ++
    [.sendLength, .sendBody, .sendLength, .sendBody, .unlock, .spawn, .hangup 1, .erase 1]

/-- The first one is told, and sends an event. -/
def afterLeave : List Action :=
  [.exitNotify 1, .sendLength, .sendBody, .unlock, .receive 0 [2, 0, 7], .broadcast 0, .unlock]

theorem sends_to_open_leave : ∃ s s', Run (ofFn step) State.start leaveRun s ∧
    Run (ofFn step) s afterLeave s' ∧ s'.wire 0 ≠ s.wire 0 ∧
    (s'.handler 1).Removed ∧ s'.wire 1 = s.wire 1 := by
  have hrun : Run (ofFn step) State.start leaveRun _ :=
    run_of_exec (Option.some_get (show (exec step State.start leaveRun).isSome by decide)).symm
  have hrest : Run (ofFn step) _ afterLeave _ :=
    run_of_exec (Option.some_get (show (exec step ((exec step State.start leaveRun).get (by decide))
      afterLeave).isSome by decide)).symm
  exact ⟨_, _, hrun, hrest, by decide, sends_to_open hrun trivial hrest⟩

end HobbitSynchrony.Sends
