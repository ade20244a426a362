import Mathlib.Algebra.BigOperators.Group.Finset.Basic
import HobbitSynchrony.OpenSockets
import HobbitSynchrony.SendRefinement

/-! # The threads of the server come to rest

The threads share one lock, and `acceptClients` and every thread of
`handleClient` take it again and again. Left alone, that is, as long as no
client connects, sends or hangs up, they finish what they have begun: no thread
waits for ever, whatever the order in which they run.

Every `send` returns here: a step of `Sends.step` that sends has sent. A client
that stops reading for good fills the buffer of its socket; the `send` to it then
blocks, mostly under the lock, and the server with it.

* `Internal`: the steps the server takes on its own;
* `State.work`: a bound on how many of them are left;
* `work_step`: each of them lowers it;
* `quiescent_of_stuck`: where none of them can be taken, nobody waits;
* `internal_steps_end`: so the server comes to rest.
-/

namespace HobbitSynchrony.Sends

open Transition

/-- The steps that do not wait for a client; that a `send` waits for its client to
read is left out. -/
def Action.Internal : Action → Prop
  | .accept _ _ => False
  | .receive _ _ => False
  | .hangup _ => False
  | _ => True

/-- Every thread waits for a client, or has ended. -/
structure Quiescent (s : State) : Prop where
  mutex : s.mutex = none
  acceptor : s.acceptor = .accepting
  handler : ∀ n, s.handler n = .absent ∨ s.handler n = .receiving ∨ s.handler n = .ended

/-! ## The work that is left -/

/-- The steps `acceptClients` still takes, if a critical section takes `k`. -/
def AcceptPoint.work (k : ℕ) : AcceptPoint → ℕ
  | .accepting => 0
  | .pushing _ => k + 5
  | .idLength _ => k + 4
  | .idBody _ => k + 3
  | .locking _ => k + 2
  | .notifying _ => 1
  | .spawning _ => 1

/-- The steps of a thread of `handleClient`. -/
def HandlerPoint.work (k : ℕ) : HandlerPoint → ℕ
  | .locking _ => k + 1
  | .erasing => k + 2
  | .lockingNotify => k + 1
  | _ => 0

/-- The sends of a critical section and the release of the lock. -/
def Loop.work (l : Loop) : ℕ := 2 * l.todo.length + l.half.toList.length + 1

/-- All of them. -/
def State.workWith (k : ℕ) (s : State) : ℕ :=
  s.acceptor.work k + (∑ n ∈ Finset.range s.accepts, (s.handler n).work k) +
    (s.mutex.map Loop.work).getD 0

/-- How long a critical section can take from now on. -/
def State.longest (s : State) : ℕ := 2 * (s.clients.length + s.acceptor.unpushed) + 1

def State.work (s : State) : ℕ := s.workWith s.longest

/-- The work of the threads when one of them moves on. -/
theorem sum_work_update (k : ℕ) (handler : ℕ → HandlerPoint) {n accepts : ℕ} (hn : n < accepts)
    (q : HandlerPoint) :
    (∑ m ∈ Finset.range accepts, (Function.update handler n q m).work k) + (handler n).work k =
      (∑ m ∈ Finset.range accepts, (handler m).work k) + q.work k := by
  have hmem : n ∈ Finset.range accepts := Finset.mem_range.2 hn
  rw [← Finset.add_sum_erase _ _ hmem, ← Finset.add_sum_erase _ (fun m => (handler m).work k) hmem,
    Function.update_self]
  have hrest : ∑ m ∈ (Finset.range accepts).erase n, (Function.update handler n q m).work k =
      ∑ m ∈ (Finset.range accepts).erase n, (handler m).work k := by
    refine Finset.sum_congr rfl fun m hm => ?_
    rw [Function.update_of_ne (Finset.ne_of_mem_erase hm)]
  rw [hrest]
  omega

/-- A thread that is not absent runs for an accepted socket. -/
theorem Sockets.lt_accepts {s : State} (hs : Sockets s) {n : ℕ} (hn : s.handler n ≠ .absent) :
    n < s.accepts := by
  by_contra hle
  exact hn (hs.unused n (Nat.le_of_not_lt hle))

/-- The recipients of a relayed message are at most all the clients. -/
theorem length_broadcast_le (s : State) (msg : BaseMessage UInt8) (holder : Thread) (id : UInt8) :
    (s.broadcastMessage holder msg id).work ≤ 2 * s.clients.length + 1 := by
  have hle := List.length_filter_le (fun h : ClientHandler => h.clientID != id) s.clients
  simp only [Loop.work, State.broadcastMessage, List.length_map, Option.toList_none,
    List.length_nil]
  omega

theorem work_notifyClients (s : State) (holder : Thread) :
    (s.notifyClients holder).work = 2 * s.clients.length + 1 := by
  simp [Loop.work, State.notifyClients]

/-- A thread takes the lock: it had `k` steps and more to go. -/
theorem work_enter {s : State} (hs : Sockets s) {k n : ℕ} {l : Loop} {q : HandlerPoint}
    (hmutex : s.mutex = none) (hn : s.handler n ≠ .absent)
    (hfrom : (s.handler n).work k = k + 1) (hto : q.work k = 0) (hl : l.work ≤ k) :
    State.workWith k { s with mutex := some l, handler := Function.update s.handler n q } <
      s.workWith k := by
  have hsum := sum_work_update k s.handler (hs.lt_accepts hn) q
  simp only [State.workWith, hmutex, Option.map_some, Option.map_none, Option.getD_some,
    Option.getD_none]
  omega

theorem work_release (k : ℕ) (s : State) (holder : Thread) :
    ((s.release holder).acceptor.work k = s.acceptor.work k) ∧
      ∀ n, ((s.release holder).handler n).work k = (s.handler n).work k := by
  cases holder with
  | acceptClients =>
      refine ⟨?_, fun _ => rfl⟩
      simp only [State.release]
      split
      next hpc => rw [hpc]; rfl
      next => rfl
  | handleClient m =>
      refine ⟨rfl, fun n => ?_⟩
      by_cases hn : n = m
      · subst hn
        simp only [State.release, Function.update_self]
        split
        next hpc => rw [hpc]; rfl
        next hpc => rw [hpc]; rfl
        next => rfl
      · simp [State.release, hn]

/-- Every internal step lowers the work, and lengthens no critical section. -/
theorem work_step {s s' : State} {a : Action} {k : ℕ} (hs : Sockets s) (hk : s.longest ≤ k)
    (ha : a.Internal) (h : step s a = some s') :
    s'.longest ≤ k ∧ s'.workWith k < s.workWith k := by
  unfold State.longest at hk ⊢
  cases a <;> simp only [step] at h
  case accept => exact ha.elim
  case receive => exact ha.elim
  case hangup => exact ha.elim
  case push =>
    split at h
    next new hpc hmutex =>
      cases h
      simp only [hpc, AcceptPoint.unpushed] at hk
      constructor
      · simp only [List.length_append, List.length_singleton, AcceptPoint.unpushed]
        omega
      · simp [State.workWith, hpc, AcceptPoint.work]
    next => cases h
  case sendIDLength =>
    split at h
    next new hpc =>
      cases h
      rw [hpc] at hk
      exact ⟨hk, by simp [State.workWith, hpc, AcceptPoint.work, State.putLength]⟩
    next => cases h
  case sendIDBody =>
    split at h
    next new hpc =>
      cases h
      rw [hpc] at hk
      exact ⟨hk, by simp [State.workWith, hpc, AcceptPoint.work, State.putBody]⟩
    next => cases h
  case acceptNotify =>
    split at h
    next new hpc hmutex =>
      cases h
      rw [hpc] at hk
      refine ⟨hk, ?_⟩
      have hwork := work_notifyClients s .acceptClients
      simp only [AcceptPoint.unpushed] at hk
      simp only [State.workWith, hpc, hmutex, AcceptPoint.work, Option.map_some, Option.map_none,
        Option.getD_some, Option.getD_none]
      omega
    next => cases h
  case spawn =>
    split at h
    next new hpc =>
      cases h
      rw [hpc] at hk
      refine ⟨hk, ?_⟩
      -- a thread that starts has no work yet
      have hsame : ∀ n, (Function.update s.handler new.socket .receiving n).work k =
          (s.handler n).work k := by
        intro n
        by_cases hn : n = new.socket
        · subst hn
          rw [Function.update_self, (hs.current new (by rw [hpc]; rfl)).2.2]
          rfl
        · rw [Function.update_of_ne hn]
      simp only [State.workWith, hsame, hpc, AcceptPoint.work]
      omega
    next => cases h
  case broadcast n =>
    split at h
    next msg hpc hmutex =>
      cases h
      refine ⟨hk, work_enter hs hmutex (by rw [hpc]; simp) (by rw [hpc]; rfl) rfl ?_⟩
      have hle := length_broadcast_le s msg (.handleClient n) (s.clientID n)
      omega
    next => cases h
  case erase n =>
    split at h
    next hpc hmutex =>
      cases h
      have hle := List.length_filter_le
        (fun ch : ClientHandler => ch.clientID != s.clientID n) s.clients
      have hsum := sum_work_update k s.handler (hs.lt_accepts (n := n) (by rw [hpc]; simp))
        .lockingNotify
      rw [hpc] at hsum
      simp only [HandlerPoint.work] at hsum
      constructor
      · show 2 * ((s.clients.filter _).length + s.acceptor.unpushed) + 1 ≤ k
        omega
      · show s.acceptor.work k + _ + _ < s.acceptor.work k + _ + _
        simp only [HandlerPoint.work]
        omega
    next => cases h
  case exitNotify n =>
    split at h
    next hpc hmutex =>
      cases h
      refine ⟨hk, work_enter hs hmutex (by rw [hpc]; simp) (by rw [hpc]; rfl) rfl ?_⟩
      rw [work_notifyClients]
      omega
    next => cases h
  case sendLength =>
    split at h
    next holder buffer r rest hmutex =>
      cases h
      refine ⟨hk, ?_⟩
      simp only [State.workWith, State.putLength, hmutex, Option.map_some, Option.getD_some,
        Loop.work, Option.toList_some, Option.toList_none, List.length_cons, List.length_nil]
      omega
    next => cases h
  case sendBody =>
    split at h
    next holder buffer rest r hmutex =>
      cases h
      refine ⟨hk, ?_⟩
      simp only [State.workWith, State.putBody, hmutex, Option.map_some, Option.getD_some,
        Loop.work, Option.toList_some, Option.toList_none, List.length_cons, List.length_nil]
      omega
    next => cases h
  case unlock =>
    split at h
    next holder buffer hmutex =>
      cases h
      rcases work_release k s holder with ⟨hacceptor, hhandler⟩
      have hloop : (s.release holder).mutex = none := by cases holder <;> rfl
      have haccepts : (s.release holder).accepts = s.accepts := by cases holder <;> rfl
      have hclients : (s.release holder).clients = s.clients := by cases holder <;> rfl
      have hunpushed : (s.release holder).acceptor.unpushed = s.acceptor.unpushed := by
        cases holder with
        | acceptClients =>
            simp only [State.release]
            split
            next hpc => rw [hpc]; rfl
            next => rfl
        | handleClient m => rfl
      refine ⟨by rw [hclients, hunpushed]; exact hk, ?_⟩
      simp only [State.workWith, hacceptor, hhandler, hloop, haccepts, hmutex, Option.map_some,
        Option.map_none, Option.getD_some, Option.getD_none, Loop.work]
      omega
    next => cases h

/-! ## Nobody waits for ever -/

/-- The holder of the lock can always go on. -/
theorem exists_step_of_lock {s : State} {l : Loop} (hmutex : s.mutex = some l) :
    ∃ a s', a.Internal ∧ step s a = some s' := by
  rcases l with ⟨holder, buffer, todo, half⟩
  cases half with
  | some r => exact ⟨.sendBody, _, trivial, by simp only [step, hmutex]; rfl⟩
  | none =>
      cases todo with
      | nil => exact ⟨.unlock, _, trivial, by simp only [step, hmutex]; rfl⟩
      | cons r rest => exact ⟨.sendLength, _, trivial, by simp only [step, hmutex]; rfl⟩

/-- Where the server has no step of its own every thread waits for a client. -/
theorem quiescent_of_stuck {s : State} {t : Net} (h : Refines s t)
    (hstuck : ∀ a, a.Internal → step s a = none) : Quiescent s := by
  rcases h with ⟨g, hsim, -⟩
  have hmutex : s.mutex = none := by
    cases hl : s.mutex with
    | none => rfl
    | some l =>
        rcases exists_step_of_lock hl with ⟨a, s', ha, hstep⟩
        rw [hstuck a ha] at hstep
        cases hstep
  constructor
  case mutex => exact hmutex
  case acceptor =>
    have hacceptor := hsim.acceptor
    rw [place_none hmutex] at hacceptor
    cases hpc : s.acceptor with
    | accepting => rfl
    | pushing new =>
        have hnone := hstuck .push trivial
        simp [step, hpc, hmutex] at hnone
    | idLength new =>
        have hnone := hstuck .sendIDLength trivial
        simp [step, hpc] at hnone
    | idBody new =>
        have hnone := hstuck .sendIDBody trivial
        simp [step, hpc] at hnone
    | locking new =>
        have hnone := hstuck .acceptNotify trivial
        simp [step, hpc, hmutex] at hnone
    -- the acceptor notifies only while it holds the lock
    | notifying new =>
        rw [hpc] at hacceptor
        cases hacceptor
    | spawning new =>
        have hnone := hstuck .spawn trivial
        simp [step, hpc] at hnone
  case handler =>
    intro n
    have hhandler := hsim.handler n
    rw [place_none hmutex] at hhandler
    cases hpc : s.handler n with
    | absent => exact .inl rfl
    | receiving => exact .inr (.inl rfl)
    | locking msg =>
        have hnone := hstuck (.broadcast n) trivial
        simp [step, hpc, hmutex] at hnone
    | broadcasting =>
        rw [hpc] at hhandler
        cases hhandler
    | erasing =>
        have hnone := hstuck (.erase n) trivial
        simp [step, hpc, hmutex] at hnone
    | lockingNotify =>
        have hnone := hstuck (.exitNotify n) trivial
        simp [step, hpc, hmutex] at hnone
    | notifying =>
        rw [hpc] at hhandler
        cases hhandler
    | ended => exact .inr (.inr rfl)

/-! ## Whole runs -/

/-- The server takes steps of its own. -/
abbrev Alone : State → Action → State → Prop := Guarded (ofFn step) fun _ a => a.Internal

/-- What holds of every state the server reaches alone. -/
def Bounded (k : ℕ) (s : State) : Prop :=
  (Sockets s ∧ s.longest ≤ k) ∧ ∃ t, Refines s t ∧ t.WellFormed

theorem bounded_step {k : ℕ} {s s' : State} {a : Action} (h : Alone s a s') (hs : Bounded k s) :
    Bounded k s' ∧ s'.workWith k < s.workWith k := by
  rcases hs with ⟨⟨hsock, hlong⟩, t, hR, hw⟩
  rcases work_step hsock hlong h.2 h.1 with ⟨hlong', hlt⟩
  rcases sim_step hR hw h.1 with ⟨_, t', -, hrun, hR'⟩
  exact ⟨⟨⟨sockets_step hsock h.1, hlong'⟩, t', hR',
    hrun.invariant (fun _ _ _ hs hw => hw.step hs) hw⟩, hlt⟩

theorem bounded_of_run {as : List Action} {s : State}
    (hrun : Run (ofFn step) State.start as s) : Bounded s.longest s := by
  rcases refines_run hrun with ⟨_, t, -, -, hR, hw⟩
  exact ⟨⟨hrun.invariant (fun _ _ _ h hs => sockets_step hs h) sockets_start, le_rfl⟩, t, hR, hw⟩

/-- A server that is left alone stops somewhere. -/
theorem exists_quiescent {k : ℕ} {s : State} (hs : Bounded k s) :
    ∃ bs s', Run Alone s bs s' ∧ Quiescent s' := by
  induction hwork : s.workWith k using Nat.strong_induction_on generalizing s with
  | _ m ih =>
    by_cases hstuck : ∀ a, a.Internal → step s a = none
    · rcases hs.2 with ⟨t, hR, -⟩
      exact ⟨[], s, Run.nil, quiescent_of_stuck hR hstuck⟩
    · rcases not_forall.1 hstuck with ⟨a, ha⟩
      rcases Classical.not_imp.1 ha with ⟨hint, hsome⟩
      rcases Option.ne_none_iff_exists'.1 hsome with ⟨s₁, hstep⟩
      -- the step leaves less work, so there is an end from there
      rcases bounded_step ⟨hstep, hint⟩ hs with ⟨hs₁, hlt⟩
      rcases ih _ (hwork ▸ hlt) hs₁ rfl with ⟨bs, s', hrun, hquiet⟩
      exact ⟨a :: bs, s', (Run.single ⟨hstep, hint⟩).append hrun, hquiet⟩

/-- From every reachable state, and in whatever order its threads run, the
server takes at most `s.work` steps of its own, if every `send` returns. It stops
only where all its threads wait for a client, and it can always come there. -/
theorem internal_steps_end {as : List Action} {s : State}
    (hrun : Run (ofFn step) State.start as s) :
    (∀ bs s', Run Alone s bs s' → bs.length ≤ s.work ∧
      (Quiescent s' ∨ ∃ a s'', Alone s' a s'')) ∧
    ∃ bs s', Run Alone s bs s' ∧ Quiescent s' := by
  have hs := bounded_of_run hrun
  refine ⟨fun bs s' hbs => ?_, exists_quiescent hs⟩
  rcases hbs.length_add_le (fun _ _ _ h hs => bounded_step h hs) hs with ⟨hs', hle⟩
  refine ⟨le_of_add_le_left hle, ?_⟩
  by_cases hstuck : ∀ a, a.Internal → step s' a = none
  · rcases hs'.2 with ⟨t, hR, -⟩
    exact .inl (quiescent_of_stuck hR hstuck)
  · rcases not_forall.1 hstuck with ⟨a, ha⟩
    rcases Classical.not_imp.1 ha with ⟨hint, hsome⟩
    rcases Option.ne_none_iff_exists'.1 hsome with ⟨s'', hstep⟩
    exact .inr ⟨a, s'', hstep, hint⟩

/-- The first client's event waits for the lock while the second client joins. -/
def busyRun : List Action :=
  joinSends ++ firstNotified ++ joinSends ++ [.receive 0 [2, 0, 7], .sendLength]

theorem internal_steps_end_busy : ∃ s, Run (ofFn step) State.start busyRun s ∧ s.work = 11 ∧
    (∀ bs s', Run Alone s bs s' → bs.length ≤ s.work ∧
      (Quiescent s' ∨ ∃ a s'', Alone s' a s'')) ∧
    ∃ bs s', Run Alone s bs s' ∧ Quiescent s' := by
  have hrun : Run (ofFn step) State.start busyRun _ :=
    run_of_exec (Option.some_get (show (exec step State.start busyRun).isSome by decide)).symm
  exact ⟨_, hrun, by decide, internal_steps_end hrun⟩

end HobbitSynchrony.Sends
