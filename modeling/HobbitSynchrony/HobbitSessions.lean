import HobbitSynchrony.ClientSessions

/-! # Starting and stopping the game client

`HobbitClient::start`, `HobbitClient::stop` and `onClientListUpdate` in
`Hobbit Multiplayer/HobbitClient.cpp`: the flag `running` is written by the
starting thread, the stopping thread and every receive thread.

* `HobbitSessions`, `step`: the three kinds of threads, in any order;
* `staysStopped_guarded`: a stopped client stays stopped if `running` is only
  set for a connection that is not over;
* `running_of_setsRunning`: it does not stay stopped otherwise;
* `start_after_stop`: a start that waits for the game and comes back after a stop.
-/

namespace HobbitSynchrony

open Transition

/-- Where `start` is: not called, between `socket` and `connect`, waiting for
the game, or about to make the update thread. -/
inductive StartPoint where
  | idle
  | connecting
  | waiting
  | launching
deriving DecidableEq, Repr

/-- Where `stop` is: not called, before `client.stop`, or before the join of
the update thread. -/
inductive StopPoint where
  | idle
  | stoppingClient
  | joining
deriving DecidableEq, Repr

/-- The update thread: not there, in its loop, or done but not joined. -/
inductive UpdateThread where
  | none
  | looping
  | finished
deriving DecidableEq, Repr

/-- A `HobbitClient`, with the connections of its `Client`. As history: whether
the last connection is over. -/
structure HobbitSessions where
  sessions : ClientSessions
  running : Bool
  startPoint : StartPoint
  stopPoint : StopPoint
  updateThread : UpdateThread
  ended : Bool
deriving DecidableEq, Repr

namespace HobbitSessions

/-- `HobbitClient(initialServerIp)`. -/
def new : HobbitSessions where
  sessions := ClientSessions.new
  running := false
  startPoint := .idle
  stopPoint := .idle
  updateThread := .none
  ended := false

/-- What `onClientListUpdate` does to the flag. -/
def onClientListUpdate (clientIDs : List UInt8) (s : HobbitSessions) : HobbitSessions :=
  { s with running := !clientIDs.isEmpty }

/-- The IDs with which a turn of a receive thread calls the listeners. -/
def listenerCall : ReceivePoint → Turn → Option (List UInt8)
  | .body _, .message clientIDs => clientIDs
  | .notifying _, .go => some []
  | _, _ => none

/-- The turn reports the loss of the current connection. -/
def ReportsLoss (s : HobbitSessions) (point : ReceivePoint) (turn : Turn) : Prop :=
  turn = .go ∧ point = .notifying s.sessions.connection

instance (s : HobbitSessions) (point : ReceivePoint) (turn : Turn) :
    Decidable (s.ReportsLoss point turn) :=
  inferInstanceAs (Decidable (_ ∧ _))

/-- The steps of `start`. -/
inductive StartAction where
  | openSocket (valid : Bool)
  | connect (success : Bool)
  | gameFound
  | launch
deriving DecidableEq, Repr

/-- The steps of `stop`. -/
inductive StopAction where
  | clearRunning
  | stopClient
  | finish
deriving DecidableEq, Repr

/-- The steps of all threads. -/
inductive Action where
  | start (a : StartAction)
  | stop (a : StopAction)
  | update
  | thread (i : ℕ) (turn : Turn)
deriving DecidableEq, Repr

/-- `start`. -/
def startStep (s : HobbitSessions) : StartAction → Option HobbitSessions
  | .openSocket valid =>
    if s.startPoint = .idle then do
      let sessions ← s.sessions.stepFn (.openSocket valid)
      return { s with sessions := sessions, startPoint := if valid then .connecting else .idle }
    else none
  | .connect success =>
    if s.startPoint = .connecting then do
      let sessions ← s.sessions.stepFn (.connect success)
      return { s with
        sessions := sessions
        startPoint := if success then .waiting else .idle
        -- a new connection
        ended := s.ended && !success }
    else none
  | .gameFound =>
    if s.startPoint = .waiting then some { s with running := true, startPoint := .launching }
    else none
  -- a thread that was not joined cannot be assigned over
  | .launch =>
    if s.startPoint = .launching ∧ s.updateThread = .none then
      some { s with updateThread := .looping, startPoint := .idle }
    else none

/-- `stop`; it waits for the update thread, if there is one. -/
def stopStep (s : HobbitSessions) : StopAction → Option HobbitSessions
  | .clearRunning =>
    if s.stopPoint = .idle then some { s with running := false, stopPoint := .stoppingClient }
    else none
  | .stopClient =>
    if s.stopPoint = .stoppingClient then do
      let sessions ← s.sessions.stepFn .stop
      return { s with sessions := sessions, stopPoint := .joining }
    else none
  | .finish =>
    if s.stopPoint = .joining ∧ s.updateThread ≠ .looping then
      some { s with stopPoint := .idle, updateThread := .none, ended := true }
    else none

/-- The condition of the loop of `update`. -/
def updateStep (s : HobbitSessions) : Option HobbitSessions :=
  if s.updateThread = .looping then
    some { s with updateThread := if s.running then .looping else .finished }
  else none

/-- A turn of a receive thread, with the call of the listeners. -/
def threadStep (s : HobbitSessions) (i : ℕ) (turn : Turn) : Option HobbitSessions := do
  let point ← s.sessions.threads[i]?
  let sessions ← s.sessions.stepFn (.thread i turn)
  let s' := { s with sessions := sessions, ended := s.ended || s.ReportsLoss point turn }
  match listenerCall point turn with
  | none => return s'
  | some clientIDs => return s'.onClientListUpdate clientIDs

def stepFn (s : HobbitSessions) : Action → Option HobbitSessions
  | .start a => s.startStep a
  | .stop a => s.stopStep a
  | .update => s.updateStep
  | .thread i turn => s.threadStep i turn

def step : HobbitSessions → Action → HobbitSessions → Prop := ofFn stepFn

/-- The actions that set the flag, if they get so far. -/
def setsRunning : Action → Bool
  | .start .gameFound => true
  | .thread _ (.message (some clientIDs)) => !clientIDs.isEmpty
  | _ => false

/-- The action ends the connection: `stop` returns, or the loss of the current
connection is reported. -/
def Ends (s : HobbitSessions) : Action → Prop
  | .stop .finish => True
  | .thread i turn => ∃ point, s.sessions.threads[i]? = some point ∧ s.ReportsLoss point turn
  | _ => False

/-! ## What a step does -/

/-- A step of `start` sets the flag or leaves it, leaves `stop` alone, ends
nothing, and makes a new connection only when `connect` succeeds. -/
theorem startStep_cases {s s' : HobbitSessions} {a : StartAction}
    (h : s.startStep a = some s') :
    (s'.running = s.running ∨ a = .gameFound ∧ s'.running = true) ∧
      s'.stopPoint = s.stopPoint ∧ (s'.ended = true → s.ended = true) ∧
      (s.ended = true → s'.ended = true ∨ a = .connect true) := by
  cases a with
  | openSocket valid =>
      simp only [startStep, Option.ite_none_right_eq_some, Option.bind_eq_bind,
        Option.bind_eq_some_iff] at h
      rcases h with ⟨-, sessions, -, h⟩
      cases h
      exact ⟨.inl rfl, rfl, id, .inl⟩
  | connect success =>
      simp only [startStep, Option.ite_none_right_eq_some, Option.bind_eq_bind,
        Option.bind_eq_some_iff] at h
      rcases h with ⟨-, sessions, -, h⟩
      cases h
      cases success <;> simp
  | gameFound =>
      simp only [startStep, Option.ite_none_right_eq_some] at h
      cases h.2
      exact ⟨.inr ⟨rfl, rfl⟩, rfl, id, .inl⟩
  | launch =>
      simp only [startStep, Option.ite_none_right_eq_some] at h
      cases h.2
      exact ⟨.inl rfl, rfl, id, .inl⟩

/-- A step of `stop` clears the flag when it begins, keeps it after that, and
ends the connection when it returns. -/
theorem stopStep_cases {s s' : HobbitSessions} {a : StopAction} (h : s.stopStep a = some s') :
    (s'.running = false ∨ s.stopPoint ≠ .idle ∧ s'.running = s.running) ∧
      (s.ended = true ∨ a = .finish → s'.ended = true) := by
  cases a with
  | clearRunning =>
      simp only [stopStep, Option.ite_none_right_eq_some] at h
      cases h.2
      exact ⟨.inl rfl, by simp⟩
  | stopClient =>
      simp only [stopStep, Option.ite_none_right_eq_some, Option.bind_eq_bind,
        Option.bind_eq_some_iff] at h
      rcases h with ⟨hpoint, sessions, -, h⟩
      cases h
      exact ⟨.inr ⟨by simp [hpoint], rfl⟩, by simp⟩
  | finish =>
      simp only [stopStep, Option.ite_none_right_eq_some] at h
      cases h.2
      exact ⟨.inr ⟨by simp [h.1.1], rfl⟩, fun _ => rfl⟩

/-- A turn of a receive thread, by the IDs it calls the listeners with. -/
theorem threadStep_cases {s s' : HobbitSessions} {i : ℕ} {turn : Turn}
    (h : s.threadStep i turn = some s') :
    ∃ point, s.sessions.threads[i]? = some point ∧ s'.stopPoint = s.stopPoint ∧
      s'.ended = (s.ended || decide (s.ReportsLoss point turn)) ∧
      match listenerCall point turn with
      | none => s'.running = s.running
      | some clientIDs => s'.running = !clientIDs.isEmpty := by
  simp only [threadStep, Option.bind_eq_bind, Option.bind_eq_some_iff] at h
  rcases h with ⟨point, hpoint, sessions, -, h⟩
  refine ⟨point, hpoint, ?_⟩
  split at h
  next hcall =>
    cases h
    exact ⟨rfl, rfl, rfl⟩
  next clientIDs hcall =>
    cases h
    exact ⟨rfl, rfl, rfl⟩

/-- The listeners are called with nobody for a loss. -/
theorem listenerCall_of_reportsLoss {s : HobbitSessions} {point : ReceivePoint} {turn : Turn}
    (h : s.ReportsLoss point turn) : listenerCall point turn = some [] := by
  rw [h.1, h.2]
  exact rfl

/-- The listeners are called with somebody for a client list only. -/
theorem setsRunning_of_listenerCall {i : ℕ} {point : ReceivePoint} {turn : Turn}
    {clientIDs : List UInt8} (h : listenerCall point turn = some clientIDs)
    (hne : clientIDs.isEmpty = false) : setsRunning (.thread i turn) = true := by
  unfold listenerCall at h
  split at h
  · subst h
    simp [setsRunning, hne]
  · cases h
    cases hne
  · cases h

/-- The last connection is over, or `stop` is about to end it. -/
def Over (s : HobbitSessions) : Prop := s.ended = true ∨ s.stopPoint ≠ .idle

/-- Only these actions set the flag. -/
theorem step_running {s s' : HobbitSessions} {a : Action} (h : step s a s')
    (hrunning : s'.running = true) : s.running = true ∨ setsRunning a = true := by
  cases a with
  | start a =>
      rcases (startStep_cases h).1 with heq | ⟨rfl, -⟩
      · exact .inl (heq.symm.trans hrunning)
      · exact .inr rfl
  | stop a =>
      rcases (stopStep_cases h).1 with hfalse | ⟨-, heq⟩
      · rw [hfalse] at hrunning
        cases hrunning
      · exact .inl (heq.symm.trans hrunning)
  | update =>
      simp only [step, ofFn, stepFn, updateStep, Option.ite_none_right_eq_some] at h
      cases h.2
      exact .inl hrunning
  | thread i turn =>
      rcases threadStep_cases h with ⟨point, -, -, -, hcall⟩
      split at hcall
      · exact .inl (hcall.symm.trans hrunning)
      next clientIDs hids =>
        rw [hcall, Bool.not_eq_true'] at hrunning
        exact .inr (setsRunning_of_listenerCall hids hrunning)

/-- A step after which the connection is over was taken when it was, or clears
the flag. -/
theorem step_over {s s' : HobbitSessions} {a : Action} (h : step s a s') (hover : s'.Over)
    (hrunning : s'.running = true) : s.Over := by
  cases a with
  | start a =>
      rcases startStep_cases h with ⟨-, hpoint, hended, -⟩
      rcases hover with hended' | hpoint'
      · exact .inl (hended hended')
      · exact .inr (hpoint ▸ hpoint')
  | stop a =>
      rcases (stopStep_cases h).1 with hfalse | ⟨hpoint, -⟩
      · rw [hfalse] at hrunning
        cases hrunning
      · exact .inr hpoint
  | update =>
      simp only [step, ofFn, stepFn, updateStep, Option.ite_none_right_eq_some] at h
      cases h.2
      exact hover
  | thread i turn =>
      rcases threadStep_cases h with ⟨point, -, hpoint, hended, hcall⟩
      rcases hover with hended' | hpoint'
      · rw [hended, Bool.or_eq_true, decide_eq_true_iff] at hended'
        rcases hended' with hended' | hloss
        · exact .inl hended'
        · -- a loss is reported with the empty list
          rw [listenerCall_of_reportsLoss hloss] at hcall
          rw [hcall] at hrunning
          cases hrunning
      · exact .inr (hpoint ▸ hpoint')

/-- A connection that is over stays so until the next one is made. -/
theorem step_ended {s s' : HobbitSessions} {a : Action} (h : step s a s')
    (hended : s.ended = true) (ha : a ≠ .start (.connect true)) : s'.ended = true := by
  cases a with
  | start a =>
      rcases startStep_cases h with ⟨-, -, -, hkeeps⟩
      rcases hkeeps hended with hended' | rfl
      · exact hended'
      · exact absurd rfl ha
  | stop a => exact (stopStep_cases h).2 (.inl hended)
  | update =>
      simp only [step, ofFn, stepFn, updateStep, Option.ite_none_right_eq_some] at h
      cases h.2
      exact hended
  | thread i turn =>
      rcases threadStep_cases h with ⟨point, -, -, hended', -⟩
      rw [hended', hended, Bool.true_or]

/-- An action that ends the connection leaves it over. -/
theorem ended_of_ends {s s' : HobbitSessions} {a : Action} (h : step s a s') (ha : s.Ends a) :
    s'.ended = true := by
  unfold Ends at ha
  split at ha
  · have hfinish : s.stopStep .finish = some s' := h
    exact (stopStep_cases hfinish).2 (.inr rfl)
  · rcases ha with ⟨point, hpoint, hloss⟩
    rcases threadStep_cases h with ⟨point', hpoint', -, hended, -⟩
    obtain rfl := Option.some.inj (hpoint.symm.trans hpoint')
    rw [hended, decide_eq_true hloss, Bool.or_true]
  · exact ha.elim

/-! ## Stopped stays stopped -/

/-- The flag is only set for a connection that is not over. -/
def OnlyLive (s : HobbitSessions) (a : Action) : Prop := setsRunning a = true → ¬ s.Over

instance (s : HobbitSessions) : Decidable s.Over :=
  inferInstanceAs (Decidable (_ ∨ _))

instance (s : HobbitSessions) (a : Action) : Decidable (s.OnlyLive a) :=
  inferInstanceAs (Decidable (_ → _))

/-- The flag is clear when the connection is over. -/
def Inv (s : HobbitSessions) : Prop := s.Over → s.running = false

theorem inv_new : Inv new := fun _ => rfl

theorem inv_step {s s' : HobbitSessions} {a : Action} (h : Guarded step OnlyLive s a s')
    (hs : s.Inv) : s'.Inv := by
  intro hover
  rw [← Bool.not_eq_true]
  intro hrunning
  have hover' := step_over h.1 hover hrunning
  rcases step_running h.1 hrunning with hbefore | hsets
  · rw [hs hover'] at hbefore
    cases hbefore
  · exact h.2 hsets hover'

/-- A connection that is over stays so along a run without a new one. -/
theorem run_ended {s s' : HobbitSessions} {bs : List Action}
    (h : Run (Guarded step OnlyLive) s bs s') (hended : s.ended = true)
    (hbs : .start (.connect true) ∉ bs) : s'.ended = true := by
  induction h with
  | nil => exact hended
  | snoc _ hs ih =>
      rw [List.mem_append, List.mem_singleton, not_or] at hbs
      exact step_ended hs.1 (ih hbs.1) fun heq => hbs.2 heq.symm

/-- A client whose flag is only set for a connection that is not over stays
stopped. -/
theorem staysStopped_guarded {as bs : List Action} {a : Action} {s₀ s₁ s : HobbitSessions}
    (hbefore : Run (Guarded step OnlyLive) new as s₀) (hends : Guarded step OnlyLive s₀ a s₁)
    (ha : s₀.Ends a) (hafter : Run (Guarded step OnlyLive) s₁ bs s)
    (hbs : .start (.connect true) ∉ bs) : s.running = false := by
  have hinv₁ := (Run.snoc hbefore hends).invariant (fun _ _ _ hs hi => inv_step hs hi) inv_new
  have hinv := hafter.invariant (fun _ _ _ hs hi => inv_step hs hi) hinv₁
  exact hinv (.inl (run_ended hafter (ended_of_ends hends.1 ha) hbs))

/-- A client that is about to report the loss of its connection. -/
def losing : HobbitSessions where
  sessions :=
    { ClientSessions.new with
      serverSocket := some 0
      threads := [.notifying (some 0)]
      opened := 1
      connection := some 0 }
  running := true
  startPoint := .idle
  stopPoint := .idle
  updateThread := .looping
  ended := false

/-- The client after the report. -/
def lost : HobbitSessions :=
  { losing with
    sessions := { losing.sessions with threads := [.leaving] }
    running := false
    ended := true }

/-- A client that has lost its connection and is stopped then. -/
theorem lost_client_stays_stopped :
    ∃ s, Run (Guarded step OnlyLive) lost
        [.update, .stop .clearRunning, .stop .stopClient, .stop .finish] s ∧
      s.running = false := by
  have hbefore : Run (Guarded step OnlyLive) new
      [.start (.openSocket true), .start (.connect true), .start .gameFound, .start .launch,
        .thread 0 .go, .thread 0 .lost] losing := run_of_exec_guardFn rfl
  have hafter : Run (Guarded step OnlyLive) lost
      [.update, .stop .clearRunning, .stop .stopClient, .stop .finish] _ :=
    run_of_isSome (by decide)
  have hreport : Guarded step OnlyLive losing (.thread 0 .go) lost := ⟨rfl, by decide⟩
  exact ⟨_, hafter, staysStopped_guarded hbefore hreport ⟨.notifying (some 0), rfl, rfl, rfl⟩
    hafter (by decide)⟩

/-! ## Coming back after the end -/

/-- Only in a body a thread gets a whole client list. -/
theorem body_of_receiveTurn {s : ClientSessions} {point : ReceivePoint}
    {clientIDs : List UInt8} {r : ClientSessions × ReceivePoint}
    (h : s.receiveTurn point (.message (some clientIDs)) = some r) :
    ∃ socket, point = .body socket := by
  cases point with
  | body socket => exact ⟨socket, rfl⟩
  | _ => simp [ClientSessions.receiveTurn] at h

/-- A step that sets the flag for a connection that is over brings the client
back. -/
theorem running_of_setsRunning {s s' : HobbitSessions} {a : Action} (h : step s a s')
    (ha : setsRunning a = true) (hended : s.ended = true) :
    s'.running = true ∧ s'.ended = true := by
  unfold setsRunning at ha
  split at ha
  · simp only [step, ofFn, stepFn, startStep, Option.ite_none_right_eq_some] at h
    cases h.2
    exact ⟨rfl, hended⟩
  · rename_i i clientIDs
    have hthread : s.threadStep i (.message (some clientIDs)) = some s' := h
    rcases threadStep_cases hthread with ⟨point, hpoint, -, hended', hcall⟩
    simp only [threadStep, hpoint, Option.bind_eq_bind, Option.bind_some,
      Option.bind_eq_some_iff, ClientSessions.stepFn] at hthread
    rcases hthread with ⟨sessions, ⟨r, hturn, -⟩, -⟩
    rcases body_of_receiveTurn hturn with ⟨socket, rfl⟩
    constructor
    · exact hcall.trans ha
    · rw [hended', hended, Bool.true_or]
  · cases ha

/-- Once an action has ended the connection, the flag is clear until a new one
is made. -/
def StaysStopped : Prop :=
  ∀ as a bs s₀ s₁ s, Run step new as s₀ → step s₀ a s₁ → s₀.Ends a → Run step s₁ bs s →
    .start (.connect true) ∉ bs → s.running = false

/-- A start that waits for the game while the client is stopped sets the flag
when the game is there. -/
theorem start_after_stop : ¬ StaysStopped := by
  intro hstays
  have hbefore : Run step new [.start (.openSocket true), .start (.connect true),
      .stop .clearRunning, .stop .stopClient] _ := run_of_exec rfl
  have hwrong := hstays _ (.stop .finish) [.start .gameFound] _ _ _ hbefore rfl trivial
    (Run.single rfl) (by decide)
  cases hwrong

end HobbitSessions

end HobbitSynchrony
