import HobbitSynchrony.Lib.Signal

/-! # Watching the game

`HobbitGameManager/HobbitGameManager.h`: the update thread looks at the game
every tick and tells its listeners when the game is opened or closed and when
a level is entered or left. What it finds in the game is an input of the tick.

* `HobbitGameManager`: the remembered flags;
* `updateGameState`, `updateLevelState`, `update`: a tick;
* `edges_reported_iff`: opening and closing are never reported;
* `enter_on_rising_iff`: which entries into a level are reported.
-/

namespace HobbitSynchrony

open Signal

/-- The event functions. Each calls every listener of its kind once. -/
inductive GameEvent where
  | enterNewLevel
  | exitLevel
  | openGame
  | closeGame
deriving DecidableEq, Repr

/-- `HobbitGameManager`: its flags. -/
structure HobbitGameManager where
  wasHobbitOpen : Bool
  isHobbitOpen : Bool
  previousState : UInt32
  currentState : UInt32
  previousLevel : UInt32
  currentLevel : UInt32
  wasLevelEnded : Bool
  isLevelEnded : Bool
  wasLevelLoading : Bool
  isLevelLoading : Bool
  isLevelLoaded : Bool
  wasLevelLoaded : Bool
deriving DecidableEq, Repr

/-- What `updateLevelState` reads in the game's memory. -/
structure LevelMemory where
  currentState : UInt32
  currentLevel : UInt32
  /-- The flag at `0x00760354`; the level has ended when it is not set. -/
  levelRunning : Bool
  isLevelLoading : Bool
  isLevelAssigned : Bool
deriving DecidableEq, Repr

/-- What one turn of `update` finds: whether the game runs, asked by `update`
and then again by `updateGameState`, and the memory. -/
structure Observation where
  isGameRunning : Bool
  isGameStillRunning : Bool
  memory : LevelMemory
deriving DecidableEq, Repr

namespace HobbitGameManager

/-- The initial values of the flags. -/
def new : HobbitGameManager where
  wasHobbitOpen := false
  isHobbitOpen := false
  previousState := -1
  currentState := -1
  previousLevel := -1
  currentLevel := -1
  wasLevelEnded := false
  isLevelEnded := false
  wasLevelLoading := false
  isLevelLoading := false
  isLevelLoaded := false
  wasLevelLoaded := false

/-! ## The event functions -/

/-- `eventEnterNewLevel`. -/
def eventEnterNewLevel (m : HobbitGameManager) : HobbitGameManager × List GameEvent :=
  ({ m with isLevelLoaded := true }, [.enterNewLevel])

/-- `eventExitLevel`. -/
def eventExitLevel (m : HobbitGameManager) : HobbitGameManager × List GameEvent :=
  ({ m with isLevelLoaded := false }, [.exitLevel])

/-- `eventOpenGame`. -/
def eventOpenGame (m : HobbitGameManager) : HobbitGameManager × List GameEvent :=
  ({ m with isLevelLoaded := false }, [.openGame])

/-- `eventCloseGame`. -/
def eventCloseGame (m : HobbitGameManager) : HobbitGameManager × List GameEvent :=
  ({ m with isLevelLoaded := false }, [.closeGame])

/-! ## A tick -/

/-- `updateGameState`. -/
def updateGameState (isGameRunning : Bool) (m : HobbitGameManager) :
    HobbitGameManager × List GameEvent :=
  let m := { m with isHobbitOpen := isGameRunning }
  if !m.isHobbitOpen then
    let (m, events) := if m.isHobbitOpen != m.wasHobbitOpen then m.eventCloseGame else (m, [])
    ({ m with wasHobbitOpen := m.isHobbitOpen }, events)
  -- the remembered flag has to be set already
  else if m.wasHobbitOpen then
    let (m, events) := m.eventOpenGame
    ({ m with wasHobbitOpen := m.isHobbitOpen }, events)
  else (m, [])

/-- `!!x`, kept in a `uint32_t`. -/
def truthValue (x : UInt32) : UInt32 := if x = 0 then 0 else 1

/-- `updateLevelState`. -/
def updateLevelState (memory : LevelMemory) (m : HobbitGameManager) :
    HobbitGameManager × List GameEvent :=
  let m := { m with
    currentState := memory.currentState
    currentLevel := memory.currentLevel
    isLevelEnded := !memory.levelRunning
    isLevelLoading := memory.isLevelLoading
    isLevelLoaded := memory.isLevelAssigned && !memory.isLevelLoading }
  let (m, left) :=
    if m.wasLevelEnded != m.isLevelEnded && m.isLevelEnded then m.eventExitLevel else (m, [])
  -- `eventExitLevel` has cleared `isLevelLoaded`
  let (m, entered) :=
    if m.wasLevelLoaded != m.isLevelLoaded && m.isLevelLoaded && !m.isLevelEnded then
      m.eventEnterNewLevel
    else (m, [])
  ({ m with
      previousState := truthValue m.currentState
      previousLevel := truthValue m.currentLevel
      wasLevelEnded := m.isLevelEnded
      wasLevelLoading := m.isLevelLoading
      wasLevelLoaded := m.isLevelLoaded },
    left ++ entered)

/-- One turn of the loop of `update`. -/
def update (m : HobbitGameManager) (o : Observation) : HobbitGameManager × List GameEvent :=
  if !o.isGameRunning then (m, [])
  else
    let (m, gameEvents) := m.updateGameState o.isGameStillRunning
    let (m, levelEvents) := m.updateLevelState o.memory
    (m, gameEvents ++ levelEvents)

end HobbitGameManager

namespace LevelMemory

/-- The level has ended. -/
def ended (memory : LevelMemory) : Bool := !memory.levelRunning

/-- A level is assigned and not being loaded. -/
def loaded (memory : LevelMemory) : Bool := memory.isLevelAssigned && !memory.isLevelLoading

/-- A level is assigned, not being loaded and not ended. -/
def onLevel (memory : LevelMemory) : Bool := memory.loaded && !memory.ended

end LevelMemory

namespace HobbitGameManager

/-! ## What a tick does -/

/-- `updateLevelState`: an exit is reported when the level has ended since the
last tick, an entry when a level is there that was not remembered as loaded. -/
theorem updateLevelState_spec (memory : LevelMemory) (m : HobbitGameManager) :
    (m.updateLevelState memory).1.wasHobbitOpen = m.wasHobbitOpen ∧
    (m.updateLevelState memory).1.wasLevelEnded = memory.ended ∧
    (m.updateLevelState memory).1.wasLevelLoaded =
      (memory.loaded && !(memory.ended && !m.wasLevelEnded)) ∧
    (m.updateLevelState memory).2 =
      (if memory.ended && !m.wasLevelEnded then [.exitLevel] else []) ++
        (if memory.onLevel && !m.wasLevelLoaded then [.enterNewLevel] else []) := by
  unfold LevelMemory.onLevel LevelMemory.loaded LevelMemory.ended updateLevelState
  rcases memory with ⟨_, _, running, loading, assigned⟩
  -- the remembered flags and the three of the memory decide
  cases m.wasLevelEnded <;> cases m.wasLevelLoaded <;> cases running <;> cases loading <;>
    cases assigned <;> simp [eventExitLevel, eventEnterNewLevel]

/-- As long as the flag of `updateGameState` is not set, a turn neither sets it
nor reports an opened or closed game. -/
theorem update_spec {m : HobbitGameManager} (h : m.wasHobbitOpen = false) (o : Observation) :
    (m.update o).1.wasHobbitOpen = false ∧ (m.update o).2.count .openGame = 0 ∧
      (m.update o).2.count .closeGame = 0 := by
  have hgame : (m.updateGameState o.isGameStillRunning).1.wasHobbitOpen = false ∧
      (m.updateGameState o.isGameStillRunning).2 = [] := by
    unfold updateGameState
    cases o.isGameStillRunning <;> simp [h]
  rcases updateLevelState_spec o.memory (m.updateGameState o.isGameStillRunning).1 with
    ⟨hopen, -, -, hevents⟩
  unfold update
  by_cases hrunning : o.isGameRunning = true
  · simp only [hrunning, Bool.not_true, Bool.false_eq_true, if_false]
    refine ⟨hopen.trans hgame.1, ?_⟩
    rw [hgame.2, hevents, List.nil_append]
    -- the events of the level are of the two other kinds
    constructor <;> split <;> split <;> decide
  · simp [hrunning, h]

end HobbitGameManager

/-! ## Opening and closing the game -/

/-- The answers of `isGameRunning` in a turn; the second time it is asked only
after a yes. -/
def Observation.answers (o : Observation) : List Bool :=
  if o.isGameRunning then [true, o.isGameStillRunning] else [false]

namespace HobbitGameManager

/-- In every turn the OpenGame listeners are called once for each change of the
answers from no to yes, and the CloseGame listeners once for each change from
yes to no. `before` is the answer from before the first turn. -/
def EdgesReported (before : Bool) (os : List Observation) : Prop :=
  ∀ pre o post, os = pre ++ o :: post →
    ((after update new pre).update o).2.count .openGame =
        rises (lastOf before (pre.flatMap Observation.answers)) o.answers ∧
    ((after update new pre).update o).2.count .closeGame =
        falls (lastOf before (pre.flatMap Observation.answers)) o.answers

/-- No turn reports that the game was opened or closed. -/
theorem count_update (pre : List Observation) (o : Observation) :
    ((after update new pre).update o).2.count .openGame = 0 ∧
      ((after update new pre).update o).2.count .closeGame = 0 := by
  have hnew : (new : HobbitGameManager).wasHobbitOpen = false := by decide
  have hstep : ∀ (m : HobbitGameManager) o, m.wasHobbitOpen = false →
      (m.update o).1.wasHobbitOpen = false := fun m o h => (update_spec h o).1
  have hafter := after_invariant hstep hnew pre
  exact (update_spec hafter o).2

/-- Opening and closing are reported exactly if there is nothing to report: the
game runs all the time, or never. -/
theorem edges_reported_iff (before : Bool) (os : List Observation) :
    EdgesReported before os ↔ ∀ answer ∈ os.flatMap Observation.answers, answer = before := by
  constructor
  · intro h
    -- the answers of the first turns have no edge, turn after turn
    have hstart : ∀ pre post, os = pre ++ post →
        rises before (pre.flatMap Observation.answers) = 0 ∧
          falls before (pre.flatMap Observation.answers) = 0 := by
      intro pre
      induction pre using List.reverseRecOn with
      | nil => simp [rises, falls]
      | append_singleton pre o ih =>
          intro post hos
          rw [List.append_assoc, List.singleton_append] at hos
          have hturn := h pre o post hos
          have hcount := count_update pre o
          rw [hcount.1, hcount.2] at hturn
          have hpre := ih (o :: post) hos
          rw [List.flatMap_append, List.flatMap_singleton, rises_append, falls_append]
          omega
    exact (edges_eq_zero_iff before _).1 (hstart os [] (List.append_nil os).symm)
  · intro h pre o post hos
    subst hos
    rw [List.flatMap_append, List.flatMap_cons] at h
    have hpre : lastOf before (pre.flatMap Observation.answers) = before :=
      lastOf_eq fun answer hmem => h answer (List.mem_append_left _ hmem)
    have hturn := (edges_eq_zero_iff before o.answers).2 fun answer hmem =>
      h answer (List.mem_append_right _ (List.mem_append_left _ hmem))
    have hcount := count_update pre o
    rw [hpre, hcount.1, hcount.2, hturn.1, hturn.2]
    exact ⟨rfl, rfl⟩

/-- A game with no level in it. -/
def noLevel : LevelMemory where
  currentState := 0
  currentLevel := 0
  levelRunning := false
  isLevelLoading := false
  isLevelAssigned := false

/-- The game is opened, and closed again. -/
theorem open_and_close_missed :
    ¬ EdgesReported false [⟨true, true, noLevel⟩, ⟨false, false, noLevel⟩] := by
  intro h
  have hopen := (h [] ⟨true, true, noLevel⟩ [⟨false, false, noLevel⟩] (by decide)).1
  revert hopen
  decide

/-! ## Entering a level -/

/-- A tick of `updateLevelState`. -/
def levelTick (m : HobbitGameManager) (memory : LevelMemory) :
    HobbitGameManager × List GameEvent :=
  m.updateLevelState memory

theorem wasLevelEnded_after (pre : List LevelMemory) :
    (after levelTick new pre).wasLevelEnded = lastOf false (pre.map LevelMemory.ended) := by
  induction pre using List.reverseRecOn with
  | nil => decide
  | append_singleton pre memory _ =>
      rw [after_append_singleton, List.map_append, List.map_singleton, lastOf_append_singleton]
      exact (updateLevelState_spec memory _).2.1

/-- An ended level is remembered as loaded from its second tick on. -/
theorem wasLevelLoaded_after (pre : List LevelMemory) (memory : LevelMemory) :
    (after levelTick new (pre ++ [memory])).wasLevelLoaded =
      (memory.loaded && !(memory.ended && !lastOf false (pre.map LevelMemory.ended))) := by
  rw [after_append_singleton, ← wasLevelEnded_after]
  exact (updateLevelState_spec memory _).2.2.1

/-- Which ticks call the EnterNewLevel listeners. -/
theorem enters_iff (pre : List LevelMemory) (memory : LevelMemory) :
    .enterNewLevel ∈ (levelTick (after levelTick new pre) memory).2 ↔
      memory.onLevel = true ∧ (after levelTick new pre).wasLevelLoaded = false := by
  have hspec : (levelTick (after levelTick new pre) memory).2 = _ :=
    (updateLevelState_spec memory (after levelTick new pre)).2.2.2
  rw [hspec, List.mem_append]
  cases memory.onLevel <;> cases (after levelTick new pre).wasLevelLoaded <;>
    cases (memory.ended && !(after levelTick new pre).wasLevelEnded) <;> simp

/-- The EnterNewLevel listeners are called at a tick exactly when `onLevel`
holds there and did not at the tick before. -/
def EntersOnRising (ms : List LevelMemory) : Prop :=
  ∀ pre memory post, ms = pre ++ memory :: post →
    (.enterNewLevel ∈ (levelTick (after levelTick new pre) memory).2 ↔
      memory.onLevel = true ∧ lastOf false (pre.map LevelMemory.onLevel) = false)

/-- An entry is missed exactly after a level that has ended for two ticks or
more and is still loaded at the last of them. -/
theorem enter_on_rising_iff (ms : List LevelMemory) :
    EntersOnRising ms ↔
      ∀ x y z : LevelMemory, [x, y, z] <:+: ms → x.ended = true → y.ended = true →
        y.loaded = true → z.onLevel = false := by
  constructor
  · rintro h x y z ⟨pre, post, hms⟩ hx hy hloaded
    have htick := h (pre ++ [x, y]) z post (by rw [← hms]; simp)
    have hsplit : pre ++ [x, y] = (pre ++ [x]) ++ [y] := by simp
    have hremembered := wasLevelLoaded_after (pre ++ [x]) y
    rw [List.map_append, List.map_singleton, lastOf_append_singleton, hx, hy,
      hloaded] at hremembered
    -- the level is remembered as loaded, so `z` is no entry, and `y` was not on the level
    rw [enters_iff, hsplit, hremembered, List.map_append, List.map_singleton,
      lastOf_append_singleton, LevelMemory.onLevel, LevelMemory.onLevel, hy] at htick
    simpa [LevelMemory.onLevel] using htick
  · intro h pre memory post hms
    rw [enters_iff]
    rcases List.eq_nil_or_concat pre with rfl | ⟨pre, y, rfl⟩
    · -- the first tick: nothing is remembered yet
      have hnew : (new : HobbitGameManager).wasLevelLoaded = false := by decide
      simp [hnew]
    · rw [List.concat_eq_append] at hms ⊢
      rw [wasLevelLoaded_after, List.map_append, List.map_singleton, lastOf_append_singleton]
      have hmissed : y.loaded = true → y.ended = true →
          lastOf false (pre.map LevelMemory.ended) = true → memory.onLevel = false := by
        intro hloaded hy hlast
        rcases List.eq_nil_or_concat pre with rfl | ⟨pre, x, rfl⟩
        · simp at hlast
        · rw [List.concat_eq_append, List.map_append, List.map_singleton,
            lastOf_append_singleton] at hlast
          refine h x y memory ⟨pre, post, ?_⟩ hlast hy hloaded
          rw [hms]
          simp
      have hon : y.onLevel = (y.loaded && !y.ended) := by unfold LevelMemory.onLevel; exact rfl
      rw [hon]
      cases hl : y.loaded <;> cases he : y.ended <;>
        cases hp : lastOf false (pre.map LevelMemory.ended) <;> simp_all

/-- A level that runs. -/
def runningLevel : LevelMemory := { noLevel with levelRunning := true, isLevelAssigned := true }

/-- A level that has ended and is still loaded. -/
def endedLevel : LevelMemory := { noLevel with isLevelAssigned := true }

/-- The level is entered, ends for two ticks, and is entered again. -/
theorem reentry_missed :
    ¬ EntersOnRising [runningLevel, endedLevel, endedLevel, runningLevel] := by
  intro h
  have hentry := h [runningLevel, endedLevel, endedLevel] runningLevel [] (by decide)
  revert hentry
  decide

end HobbitGameManager

end HobbitSynchrony
