import HobbitSynchrony.Lib.Run
import HobbitSynchrony.HobbitGameManager
import HobbitSynchrony.RosterParser

/-! # The listeners of the sessions

`HobbitClient::start` adds its callbacks to the listeners of `Client` and of
`HobbitGameManager`, which keep them: `stop` takes none away.

* `HobbitListeners`, `step`: `start` and `stop` called in any order;
* `listening_run`: how many times each callback is a listener;
* `handledOnce_iff`: events are handled once exactly in the first session.
-/

namespace HobbitSynchrony

open Transition

/-- The callbacks of a `HobbitClient`. -/
inductive HobbitCallback where
  | onClientListUpdate
  | onEnterNewLevel
  | onExitLevel
  | onOpenGame
  | onCloseGame
deriving DecidableEq, Repr

/-- The listeners of the client and of the game manager, and whether their
threads are there to be joined. -/
structure HobbitListeners where
  listeners : List HobbitCallback
  listenersEnterNewLevel : List HobbitCallback
  listenersExitLevel : List HobbitCallback
  listenersOpenGame : List HobbitCallback
  listenersCloseGame : List HobbitCallback
  managerThread : Bool
  updateThread : Bool
deriving DecidableEq, Repr

namespace HobbitListeners

def new : HobbitListeners where
  listeners := []
  listenersEnterNewLevel := []
  listenersExitLevel := []
  listenersOpenGame := []
  listenersCloseGame := []
  managerThread := false
  updateThread := false

/-- A call of `start`, which connects or does not, or a call of `stop`. -/
inductive Action where
  | start (connects : Bool)
  | stop
deriving DecidableEq, Repr

/-- `HobbitClient::start`. A thread that was not joined cannot be assigned
over, which ends the program. -/
def start (connects : Bool) (s : HobbitListeners) : Option HobbitListeners :=
  let s : HobbitListeners := { s with listeners := s.listeners ++ [.onClientListUpdate] }
  if !connects then some s
  else
    let s : HobbitListeners := { s with
      listenersEnterNewLevel := s.listenersEnterNewLevel ++ [.onEnterNewLevel]
      listenersExitLevel := s.listenersExitLevel ++ [.onExitLevel]
      listenersOpenGame := s.listenersOpenGame ++ [.onOpenGame]
      listenersCloseGame := s.listenersCloseGame ++ [.onCloseGame] }
    if s.managerThread || s.updateThread then none
    else some { s with managerThread := true, updateThread := true }

/-- `HobbitClient::stop`: it joins the threads. -/
def stop (s : HobbitListeners) : HobbitListeners :=
  { s with managerThread := false, updateThread := false }

def stepFn (s : HobbitListeners) : Action → Option HobbitListeners
  | .start connects => s.start connects
  | .stop => some s.stop

def step : HobbitListeners → Action → HobbitListeners → Prop := ofFn stepFn

/-! ## Calling the listeners -/

/-- The listeners an event function calls. -/
def listenersOf (s : HobbitListeners) : GameEvent → List HobbitCallback
  | .enterNewLevel => s.listenersEnterNewLevel
  | .exitLevel => s.listenersExitLevel
  | .openGame => s.listenersOpenGame
  | .closeGame => s.listenersCloseGame

/-- The callbacks called in one turn of `HobbitGameManager::update`. -/
def tickCalls (s : HobbitListeners) (m : HobbitGameManager) (o : Observation) :
    List HobbitCallback :=
  (m.update o).2.flatMap s.listenersOf

/-- The callbacks called by `Client::updateClientList`. -/
def rosterCalls (s : HobbitListeners) (c : Client) (data : List UInt8) : List HobbitCallback :=
  (c.updateClientListNotifying s.listeners data).2.map Prod.fst

/-- Every roster update, every level entry and every level exit is handled
once. -/
def HandledOnce (s : HobbitListeners) : Prop :=
  (∀ c data, (s.rosterCalls c data).count .onClientListUpdate = 1) ∧
    ∀ m o, (s.tickCalls m o).count .onEnterNewLevel = (m.update o).2.count .enterNewLevel ∧
      (s.tickCalls m o).count .onExitLevel = (m.update o).2.count .exitLevel

/-! ## What the lists hold -/

/-- The listeners after `starts` calls of `start`, of which `sessions`
connected. -/
structure Listening (starts sessions : ℕ) (s : HobbitListeners) : Prop where
  roster : s.listeners = List.replicate starts .onClientListUpdate
  enter : s.listenersEnterNewLevel = List.replicate sessions .onEnterNewLevel
  exit : s.listenersExitLevel = List.replicate sessions .onExitLevel
  openGame : s.listenersOpenGame = List.replicate sessions .onOpenGame
  closeGame : s.listenersCloseGame = List.replicate sessions .onCloseGame

/-- The call is a `start`, whether it connects or not. -/
def isStart : Action → Bool
  | .start _ => true
  | .stop => false

theorem listening_step {starts sessions : ℕ} {s s' : HobbitListeners} {a : Action}
    (h : s.Listening starts sessions) (hstep : step s a s') :
    s'.Listening (starts + [a].countP isStart) (sessions + [a].count (.start true)) := by
  cases a with
  | stop =>
      cases hstep
      exact ⟨h.roster, h.enter, h.exit, h.openGame, h.closeGame⟩
  | start connects =>
      have hstart : s.start connects = some s' := hstep
      unfold start at hstart
      cases connects with
      | false =>
          cases hstart
          exact ⟨by simp [isStart, h.roster, List.replicate_succ'], h.enter, h.exit, h.openGame,
            h.closeGame⟩
      | true =>
          simp only [Bool.not_true, Bool.false_eq_true, if_false, Option.ite_none_left_eq_some]
            at hstart
          cases hstart.2
          constructor
          · simp [isStart, h.roster, List.replicate_succ']
          · simp [h.enter, List.replicate_succ']
          · simp [h.exit, List.replicate_succ']
          · simp [h.openGame, List.replicate_succ']
          · simp [h.closeGame, List.replicate_succ']

/-- After any calls, the callback for a roster is a listener once for each
`start`, the others once for each `start` that connected. -/
theorem listening_run {as : List Action} {s : HobbitListeners} (h : Run step new as s) :
    s.Listening (as.countP isStart) (as.count (.start true)) := by
  induction h with
  | nil => exact ⟨rfl, rfl, rfl, rfl, rfl⟩
  | snoc _ hstep ih =>
      rw [List.countP_append, List.count_append]
      exact listening_step ih hstep

/-! ## What is called -/

theorem rosterCalls_eq (s : HobbitListeners) (c : Client) (data : List UInt8) :
    s.rosterCalls c data = s.listeners := by
  unfold rosterCalls Client.updateClientListNotifying
  dsimp only
  rw [List.map_map]
  exact List.map_id _

/-- Every event is handled once for each session. -/
theorem count_flatMap_listenersOf {starts sessions : ℕ} {s : HobbitListeners}
    (h : s.Listening starts sessions) (events : List GameEvent) :
    (events.flatMap s.listenersOf).count .onEnterNewLevel =
        events.count .enterNewLevel * sessions ∧
      (events.flatMap s.listenersOf).count .onExitLevel = events.count .exitLevel * sessions := by
  induction events with
  | nil => simp
  | cons event events ih =>
      rw [List.flatMap_cons, List.count_append, List.count_append, ih.1, ih.2]
      cases event with
      | enterNewLevel =>
          simp [listenersOf, h.enter, List.count_replicate, Nat.succ_mul, Nat.add_comm]
      | exitLevel =>
          simp [listenersOf, h.exit, List.count_replicate, Nat.succ_mul, Nat.add_comm]
      | openGame => simp [listenersOf, h.openGame, List.count_replicate]
      | closeGame => simp [listenersOf, h.closeGame, List.count_replicate]

theorem handledOnce_listening {starts sessions : ℕ} {s : HobbitListeners}
    (h : s.Listening starts sessions) : s.HandledOnce ↔ starts = 1 ∧ sessions = 1 := by
  constructor
  · rintro ⟨hroster, htick⟩
    have hstarts := hroster Client.new []
    rw [rosterCalls_eq, h.roster, List.count_replicate_self] at hstarts
    refine ⟨hstarts, ?_⟩
    -- a level that has ended is a first exit
    have hexit := (htick HobbitGameManager.new ⟨true, true, HobbitGameManager.noLevel⟩).2
    have hone : (HobbitGameManager.new.update ⟨true, true, HobbitGameManager.noLevel⟩).2.count
        .exitLevel = 1 := by decide
    unfold tickCalls at hexit
    rw [(count_flatMap_listenersOf h _).2, hone, Nat.one_mul] at hexit
    exact hexit
  · rintro ⟨rfl, rfl⟩
    constructor
    · intro c data
      rw [rosterCalls_eq, h.roster, List.count_replicate_self]
    · intro m o
      have hcount := count_flatMap_listenersOf h (m.update o).2
      rw [Nat.mul_one, Nat.mul_one] at hcount
      exact hcount

/-- After a `start` that connects, events are handled once exactly if nothing
but `stop` was called before. -/
theorem handledOnce_iff {as : List Action} {s : HobbitListeners}
    (h : Run step new (as ++ [.start true]) s) : s.HandledOnce ↔ ∀ a ∈ as, a = .stop := by
  rw [handledOnce_listening (listening_run h), List.countP_append, List.count_append]
  have hlast : [Action.start true].countP isStart = 1 ∧
      [Action.start true].count (.start true) = 1 := by decide
  rw [hlast.1, hlast.2]
  constructor
  · rintro ⟨hstarts, -⟩ a ha
    have hnone : as.countP isStart = 0 := by omega
    rw [List.countP_eq_zero] at hnone
    cases a with
    | start connects => exact absurd rfl (hnone _ ha)
    | stop => exact rfl
  · intro hstops
    have hstarts : as.countP isStart = 0 := by
      rw [List.countP_eq_zero]
      intro a ha
      rw [hstops a ha]
      decide
    have hsessions : as.count (.start true) = 0 := by
      rw [List.count_eq_zero]
      intro hmem
      cases hstops _ hmem
    omega

/-- A first session. -/
theorem handledOnce_first :
    ∃ s, Run step new ([.stop] ++ [.start true]) s ∧ s.HandledOnce := by
  have hrun : Run step new ([.stop] ++ [.start true])
      ((exec stepFn new ([.stop] ++ [.start true])).get (by decide)) :=
    run_of_exec (Option.some_get _).symm
  exact ⟨_, hrun, (handledOnce_iff hrun).2 (by decide)⟩

/-- The second session handles every roster twice. -/
theorem second_session_not_handledOnce :
    ¬ ∀ as s, Run step new (as ++ [.start true]) s → s.HandledOnce := by
  intro h
  have hrun : Run step new ([.start true, .stop] ++ [.start true])
      ((exec stepFn new [.start true, .stop, .start true]).get (by decide)) :=
    run_of_exec (Option.some_get _).symm
  have hroster := (h _ _ hrun).1 Client.new []
  rw [rosterCalls_eq] at hroster
  revert hroster
  decide

end HobbitListeners

end HobbitSynchrony
