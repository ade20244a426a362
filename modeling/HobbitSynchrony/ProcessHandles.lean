import HobbitSynchrony.Lib.Run
import HobbitSynchrony.HobbitGameManager

/-! # The handles of the game process

`ProcessAnalyzer::getProcess` opens the game process and hands the handle out.
`isGameRunning` only compares it with null, `updatePtrToProcess` stores it over
the handle that was stored before, and no function closes one.

* `Lookup`, `getProcess`: a call and what the system answers;
* `ProcessHandles`, `step`: the callers, in any order;
* `owned_iff`: the runs in which every handle is the stored one.
-/

namespace HobbitSynchrony

open Transition

/-- `PROCESSENTRY32`: the name of the executable and the process ID. -/
structure ProcessEntry where
  szExeFile : String
  th32ProcessID : UInt32
deriving DecidableEq, Repr

/-- What the system answers to one call of `getProcess`: the processes, if there
is a snapshot of them, and whether `OpenProcess` succeeds. -/
structure Lookup where
  snapshot : Option (List ProcessEntry)
  canOpen : Bool
deriving DecidableEq, Repr

namespace Lookup

/-- The process ID found by the loop over the snapshot, 0 if there is none. -/
def pid (processName : String) (entries : List ProcessEntry) : UInt32 :=
  match entries.find? fun pe32 => pe32.szExeFile = processName with
  | some pe32 => pe32.th32ProcessID
  | none => 0

/-- `OpenProcess` is called and returns a handle. -/
def opens (processName : String) (o : Lookup) : Bool :=
  match o.snapshot with
  | none => false
  | some entries => pid processName entries != 0 && o.canOpen

/-- The name that is searched for. -/
def gameOpens (o : Lookup) : Bool := o.opens "Meridian.exe"

end Lookup

/-- The game manager and its handle. As history: how many handles `OpenProcess`
has returned, which are numbered in this order. -/
structure ProcessHandles where
  manager : HobbitGameManager
  hobbitProcess : Option ℕ
  updateThread : Bool
  opened : ℕ
deriving DecidableEq, Repr

/-- The lookups of one turn of the update thread: of `update`, of
`updateGameState`, and of `updatePtrToProcess`. -/
structure TickLookups where
  running : Lookup
  stillRunning : Lookup
  updatePtr : Lookup
deriving DecidableEq, Repr

namespace ProcessHandles

def new : ProcessHandles where
  manager := HobbitGameManager.new
  hobbitProcess := none
  updateThread := false
  opened := 0

/-- `getProcess`: the handle, or null. -/
def getProcess (o : Lookup) (s : ProcessHandles) : Option ℕ × ProcessHandles :=
  if o.gameOpens then (some s.opened, { s with opened := s.opened + 1 }) else (none, s)

/-- `isGameRunning`. -/
def isGameRunning (o : Lookup) (s : ProcessHandles) : Bool × ProcessHandles :=
  let (process, s) := s.getProcess o
  (process.isSome, s)

/-- `updatePtrToProcess`. -/
def updatePtrToProcess (o : Lookup) (s : ProcessHandles) : ProcessHandles :=
  let (process, s) := s.getProcess o
  { s with hobbitProcess := process }

/-- The loop `while (!isGameRunning())`, which these lookups end. -/
def waitForGame : List Lookup → ProcessHandles → Option ProcessHandles
  | [], _ => none
  | o :: lookups, s =>
    let (running, s) := s.isGameRunning o
    if !running then waitForGame lookups s
    else if lookups = [] then some s
    else none

/-- `HobbitGameManager::start`. A thread that was not joined cannot be assigned
over. -/
def start (lookups : List Lookup) (updatePtr : Lookup) (s : ProcessHandles) :
    Option ProcessHandles := do
  let s ← waitForGame lookups s
  let s := s.updatePtrToProcess updatePtr
  if s.updateThread then none else return { s with updateThread := true }

/-- `HobbitGameManager::stop`. -/
def stop (s : ProcessHandles) : ProcessHandles := { s with updateThread := false }

/-- `updateGameState` and `updateLevelState`; the events of an opened or closed
game look the process up again. -/
def updateStates (stillRunning updatePtr : Lookup) (memory : LevelMemory) (s : ProcessHandles) :
    ProcessHandles :=
  let (isHobbitOpen, s) := s.isGameRunning stillRunning
  let (manager, gameEvents) := s.manager.updateGameState isHobbitOpen
  let s := if gameEvents = [] then s else s.updatePtrToProcess updatePtr
  { s with manager := (manager.updateLevelState memory).1 }

/-- One turn of the loop of `HobbitGameManager::update`. -/
def tick (o : TickLookups) (memory : LevelMemory) (s : ProcessHandles) : ProcessHandles :=
  let (running, s) := s.isGameRunning o.running
  if !running then s else s.updateStates o.stillRunning o.updatePtr memory

/-- The calls. -/
inductive Action where
  | isGameRunning (o : Lookup)
  | updatePtrToProcess (o : Lookup)
  | tick (o : TickLookups) (memory : LevelMemory)
  | start (lookups : List Lookup) (updatePtr : Lookup)
  | stop
deriving DecidableEq, Repr

/-- A call; a tick needs the update thread. -/
def stepFn (s : ProcessHandles) : Action → Option ProcessHandles
  | .isGameRunning o => some (s.isGameRunning o).2
  | .updatePtrToProcess o => some (s.updatePtrToProcess o)
  | .tick o memory => if s.updateThread then some (s.tick o memory) else none
  | .start lookups updatePtr => s.start lookups updatePtr
  | .stop => some s.stop

def step : ProcessHandles → Action → ProcessHandles → Prop := ofFn stepFn

/-- Every handle that `OpenProcess` has returned is the stored one. None is
closed, so the others are lost. -/
def Owned (s : ProcessHandles) : Prop := ∀ handle < s.opened, s.hobbitProcess = some handle

/-- The call asks only whether the game runs, and gets a handle. -/
def Probes : Action → Prop
  | .isGameRunning o => o.gameOpens = true
  | .updatePtrToProcess _ => False
  | .tick o _ => o.running.gameOpens = true
  | .start _ _ => True
  | .stop => False

/-- The call neither asks for a handle it does not keep, nor stores one over
another. -/
def Keeps (s : ProcessHandles) (a : Action) : Prop :=
  ¬ Probes a ∧ ∀ o, a = .updatePtrToProcess o → s.hobbitProcess = none

/-! ## Lost handles -/

/-- The handle was returned, and is not the stored one. -/
def Lost (s : ProcessHandles) (handle : ℕ) : Prop :=
  handle < s.opened ∧ s.hobbitProcess ≠ some handle

/-- The stored handle is one that was returned. -/
def Stored (s : ProcessHandles) : Prop :=
  ∀ handle, s.hobbitProcess = some handle → handle < s.opened

theorem not_owned_of_lost {s : ProcessHandles} {handle : ℕ} (h : s.Lost handle) : ¬ s.Owned :=
  fun howned => h.2 (howned handle h.1)

theorem isGameRunning_eq (o : Lookup) (s : ProcessHandles) :
    s.isGameRunning o =
      (o.gameOpens, if o.gameOpens then { s with opened := s.opened + 1 } else s) := by
  unfold isGameRunning getProcess
  cases o.gameOpens <;> simp

theorem updatePtrToProcess_eq (o : Lookup) (s : ProcessHandles) :
    s.updatePtrToProcess o =
      if o.gameOpens then { s with hobbitProcess := some s.opened, opened := s.opened + 1 }
      else { s with hobbitProcess := none } := by
  unfold updatePtrToProcess getProcess
  cases o.gameOpens <;> simp

/-- A lost handle stays lost. -/
theorem lost_isGameRunning {s : ProcessHandles} {handle : ℕ} (h : s.Lost handle) (o : Lookup) :
    (s.isGameRunning o).2.Lost handle := by
  rw [isGameRunning_eq]
  dsimp only
  split
  · exact ⟨Nat.lt_succ_of_lt h.1, h.2⟩
  · exact h

theorem lost_updatePtrToProcess {s : ProcessHandles} {handle : ℕ} (h : s.Lost handle)
    (o : Lookup) : (s.updatePtrToProcess o).Lost handle := by
  rw [updatePtrToProcess_eq]
  have hlt := h.1
  split
  · -- the new handle is another one
    refine ⟨Nat.lt_succ_of_lt hlt, ?_⟩
    intro heq
    cases heq
    exact absurd hlt (Nat.lt_irrefl _)
  · refine ⟨hlt, ?_⟩
    intro heq
    cases heq

/-- A probe that gets a handle loses it. -/
theorem lost_of_probe {s : ProcessHandles} (hs : s.Stored) {o : Lookup}
    (h : o.gameOpens = true) : (s.isGameRunning o).2.Lost s.opened := by
  rw [isGameRunning_eq, h]
  refine ⟨Nat.lt_succ_self _, ?_⟩
  intro heq
  exact absurd (hs _ heq) (Nat.lt_irrefl _)

/-- A handle that is stored over is lost. -/
theorem lost_of_overwritten {s : ProcessHandles} (hs : s.Stored) {handle : ℕ}
    (h : s.hobbitProcess = some handle) (o : Lookup) : (s.updatePtrToProcess o).Lost handle := by
  rw [updatePtrToProcess_eq]
  have hlt := hs handle h
  split
  · refine ⟨Nat.lt_succ_of_lt hlt, ?_⟩
    intro heq
    cases heq
    exact absurd hlt (Nat.lt_irrefl _)
  · refine ⟨hlt, ?_⟩
    intro heq
    cases heq

/-- The probe that ends the wait for the game gets a handle, and loses it. -/
theorem lost_waitForGame {lookups : List Lookup} {s s' : ProcessHandles} (hs : s.Stored)
    (h : waitForGame lookups s = some s') : ∃ handle, s'.Lost handle := by
  induction lookups with
  | nil => cases h
  | cons o lookups ih =>
      unfold waitForGame at h
      rw [isGameRunning_eq] at h
      cases hopens : o.gameOpens with
      | true =>
          have hlost := lost_of_probe hs hopens
          rw [isGameRunning_eq, hopens] at hlost
          simp only [hopens, Bool.not_true, Bool.false_eq_true, if_false,
            Option.ite_none_right_eq_some, if_true, Option.some.injEq] at h
          exact ⟨_, h.2 ▸ hlost⟩
      | false =>
          simp only [hopens, Bool.not_false, Bool.false_eq_true, if_false, if_true] at h
          exact ih h

theorem tick_eq (o : TickLookups) (memory : LevelMemory) (s : ProcessHandles) :
    s.tick o memory =
      if o.running.gameOpens then
        (s.isGameRunning o.running).2.updateStates o.stillRunning o.updatePtr memory
      else s := by
  unfold tick
  rw [isGameRunning_eq]
  cases o.running.gameOpens <;> simp

theorem lost_updateStates {s : ProcessHandles} {handle : ℕ} (h : s.Lost handle)
    (stillRunning updatePtr : Lookup) (memory : LevelMemory) :
    (s.updateStates stillRunning updatePtr memory).Lost handle := by
  have hstill := lost_isGameRunning h stillRunning
  have hupdate := lost_updatePtrToProcess hstill updatePtr
  unfold updateStates Lost
  dsimp only
  split
  · exact hstill
  · exact hupdate

/-! ## The runs that lose none -/

/-- The invariant: every handle is the stored one, and the stored one was
returned. -/
structure Safe (s : ProcessHandles) : Prop where
  owned : s.Owned
  stored : s.Stored

theorem safe_step {s s' : ProcessHandles} {a : Action} (hs : s.Safe) (h : step s a s')
    (hkeeps : s.Keeps a) : s'.Safe := by
  cases a with
  | isGameRunning o =>
      have hno : o.gameOpens = false := Bool.eq_false_iff.2 hkeeps.1
      cases h
      rw [isGameRunning_eq, hno]
      exact hs
  | updatePtrToProcess o =>
      -- nothing is stored, so nothing was opened
      have hnone := hkeeps.2 o rfl
      have hopened : s.opened = 0 := by
        by_contra hpos
        have hzero := hs.owned 0 (Nat.pos_of_ne_zero hpos)
        rw [hnone] at hzero
        cases hzero
      cases h
      rw [updatePtrToProcess_eq, hopened]
      split
      · constructor
        · intro handle hlt
          rw [Nat.lt_one_iff.1 hlt]
        · intro handle heq
          cases heq
          exact Nat.one_pos
      · constructor
        · intro handle hlt
          exact absurd hlt (Nat.not_lt_zero _)
        · intro handle heq
          cases heq
  | tick o memory =>
      have hno : ¬ o.running.gameOpens = true := hkeeps.1
      have hs' : (if s.updateThread then some (s.tick o memory) else none) = some s' := h
      rw [tick_eq, if_neg hno, Option.ite_none_right_eq_some] at hs'
      cases hs'.2
      exact hs
  | start lookups updatePtr => exact absurd trivial hkeeps.1
  | stop =>
      cases h
      exact ⟨hs.owned, hs.stored⟩

/-- A call that loses no handle neither probes with success nor stores over. -/
theorem keeps_of_owned {s s' : ProcessHandles} {a : Action} (hs : s.Stored) (h : step s a s')
    (howned : s'.Owned) : s.Keeps a := by
  constructor
  · intro hprobes
    cases a with
    | isGameRunning o =>
        cases h
        exact not_owned_of_lost (lost_of_probe hs hprobes) howned
    | updatePtrToProcess o => exact hprobes
    | tick o memory =>
        have hopens : o.running.gameOpens = true := hprobes
        have hs' : (if s.updateThread then some (s.tick o memory) else none) = some s' := h
        rw [tick_eq, if_pos hopens, Option.ite_none_right_eq_some] at hs'
        cases hs'.2
        exact not_owned_of_lost (lost_updateStates (lost_of_probe hs hopens) _ _ _) howned
    | start lookups updatePtr =>
        simp only [step, ofFn, stepFn, start, Option.bind_eq_bind, Option.bind_eq_some_iff] at h
        rcases h with ⟨found, hwait, hrest⟩
        rcases lost_waitForGame hs hwait with ⟨handle, hlost⟩
        rw [Option.ite_none_left_eq_some] at hrest
        cases hrest.2
        have hupdated : Lost { found.updatePtrToProcess updatePtr with updateThread := true }
            handle :=
          lost_updatePtrToProcess hlost updatePtr
        exact not_owned_of_lost hupdated howned
    | stop => exact hprobes
  · rintro o rfl
    cases hprocess : s.hobbitProcess with
    | none => exact rfl
    | some handle =>
        cases h
        exact absurd howned (not_owned_of_lost (lost_of_overwritten hs hprocess o))

/-- In a run every handle is the stored one after every call exactly if no call
asks only whether the game runs and gets a handle, and none stores a handle over
another. -/
theorem owned_iff (as : List Action) :
    EveryStep step new as (fun _ _ s' => s'.Owned) ↔
      EveryStep step new as fun s a _ => s.Keeps a := by
  have hnew : new.Safe := by
    constructor
    · intro handle hlt
      exact absurd hlt (Nat.not_lt_zero _)
    · intro handle heq
      cases heq
  refine (everyStep_iff Safe _ _ hnew ?_ ?_).symm
  · intro s a s' hs hstep hkeeps
    exact safe_step hs hstep hkeeps
  · intro s a s' hs hstep
    constructor
    · intro hkeeps
      exact (safe_step hs hstep hkeeps).owned
    · exact keeps_of_owned hs.stored hstep

/-- The game runs. -/
def gameThere : Lookup := ⟨some [⟨"explorer.exe", 4⟩, ⟨"Meridian.exe", 8⟩], true⟩

/-- One question whether the game runs. -/
theorem handle_lost : ¬ ∀ as, EveryStep step new as fun _ _ s' => s'.Owned := by
  intro h
  have howned := h [.isGameRunning gameThere] [] (.isGameRunning gameThere) new _
    (List.prefix_refl _) Run.nil rfl 0
  revert howned
  decide

end ProcessHandles

end HobbitSynchrony
