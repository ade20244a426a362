import HobbitSynchrony.Lib.Run
import HobbitSynchrony.Lib.Signal

/-! # The latest value in a mailbox

A writer sends values, one after the other, to a box that keeps the last one that has
arrived. A reader copies what is in the box, displays what it has copied, and clears
the box. A value that arrives between the copy and the clear is lost; if none does,
the reader displays the last value as soon as it is at rest.

* `State`, `Action`, `step`: the writer, the queue, the box and the reader;
* `Undisturbed`: nothing arrives while the reader is busy;
* `newest`: what the reader is going to display in the end;
* `Since`, `since_run`: it is the last value that was written;
* `shown_at_rest`: at rest it is displayed.
-/

namespace LatestValue

open Transition Signal

universe u

/-- What is displayed, copied, in the box and on its way to it; whether the reader is
between a copy and a clear; and, as history, what was written. -/
structure State (X : Type u) where
  shown : X
  copied : List X
  box : Option X
  queue : List X
  busy : Bool
  written : List X

inductive Action (X : Type u) where
  | write (x : X)
  | arrive
  | copy (busy : Bool)
  | display
  | clear
  | finish

variable {X : Type u}

/-- The steps. A reader that has copied nothing can be busy with other boxes. -/
def step (s : State X) : Action X → Option (State X)
  | .write x => some { s with queue := s.queue ++ [x], written := s.written ++ [x] }
  | .arrive =>
    match s.queue with
    | [] => none
    | x :: rest => some { s with box := some x, queue := rest }
  | .copy busy =>
    match s.copied with
    | [] => some { s with copied := s.box.toList, busy := busy }
    | _ :: _ => none
  | .display =>
    match s.copied with
    | [] => none
    | x :: rest => some { s with shown := x, copied := rest }
  | .clear => if s.busy then some { s with box := none } else none
  | .finish =>
    match s.copied with
    | [] => some { s with busy := false }
    | _ :: _ => none

theorem step_arrive {s : State X} {x : X} {rest : List X} (h : s.queue = x :: rest) :
    step s .arrive = some { s with box := some x, queue := rest } := by
  unfold step
  dsimp only
  rw [h]

theorem step_copy {s : State X} (h : s.copied = []) (busy : Bool) :
    step s (.copy busy) = some { s with copied := s.box.toList, busy := busy } := by
  unfold step
  dsimp only
  rw [h]

theorem step_display {s : State X} {x : X} {rest : List X} (h : s.copied = x :: rest) :
    step s .display = some { s with shown := x, copied := rest } := by
  unfold step
  dsimp only
  rw [h]

theorem step_clear {s : State X} (h : s.busy = true) :
    step s .clear = some { s with box := none } := if_pos h

theorem step_finish {s : State X} (h : s.copied = []) :
    step s .finish = some { s with busy := false } := by
  unfold step
  dsimp only
  rw [h]

/-- Nothing arrives while the reader is busy. -/
def Undisturbed (s : State X) : Action X → Prop
  | .arrive => s.busy = false
  | _ => True

/-- What the reader is going to display when all has arrived. -/
def newest (s : State X) : X := lastOf s.shown (s.copied ++ s.box.toList ++ s.queue)

/-- A busy reader has what is in the box, or it displays it already. -/
def Held (s : State X) : Prop :=
  s.busy = true → ∀ x, s.box = some x → lastOf s.shown s.copied = x

/-- The value that an action writes. -/
def Action.value : Action X → List X
  | .write x => [x]
  | _ => []

/-- A step keeps what is going to be displayed, unless it writes a newer value. -/
theorem newest_step {s s' : State X} {a : Action X} (hs : Held s)
    (h : Guarded (ofFn step) Undisturbed s a s') :
    Held s' ∧ s'.written = s.written ++ a.value ∧
      newest s' = lastOf (newest s) a.value := by
  rcases h with ⟨hstep, hundisturbed⟩
  cases a with
  | write x =>
      cases hstep
      refine ⟨hs, rfl, ?_⟩
      unfold newest Action.value
      dsimp only
      rw [← List.append_assoc, lastOf_append_singleton, lastOf_cons, lastOf_nil]
  | arrive =>
      unfold ofFn step at hstep
      dsimp only at hstep
      split at hstep
      next => cases hstep
      next x rest hqueue =>
        cases hstep
        refine ⟨?_, (List.append_nil _).symm, ?_⟩
        · intro hbusy
          rw [hundisturbed] at hbusy
          cases hbusy
        · unfold newest Action.value
          rw [hqueue, lastOf_nil]
          simp only [lastOf_append, lastOf_cons, Option.toList_some, lastOf_nil]
  | copy busy =>
      unfold ofFn step at hstep
      dsimp only at hstep
      split at hstep
      next hcopied =>
        cases hstep
        refine ⟨?_, (List.append_nil _).symm, ?_⟩
        · rintro - x hx
          dsimp only at hx ⊢
          rw [hx]
          rfl
        · unfold newest Action.value
          rw [hcopied, lastOf_nil]
          cases s.box with
          | none => rfl
          | some x => simp
      next => cases hstep
  | display =>
      unfold ofFn step at hstep
      dsimp only at hstep
      split at hstep
      next => cases hstep
      next x rest hcopied =>
        cases hstep
        refine ⟨?_, (List.append_nil _).symm, ?_⟩
        · intro hbusy y hy
          rw [← hs hbusy y hy, hcopied, lastOf_cons]
        · unfold newest Action.value
          rw [hcopied, lastOf_nil, List.cons_append, List.cons_append, lastOf_cons]
  | clear =>
      unfold ofFn step at hstep
      dsimp only at hstep
      split at hstep
      next hbusy =>
        cases hstep
        refine ⟨nofun, (List.append_nil _).symm, ?_⟩
        unfold newest Action.value
        rw [lastOf_nil]
        cases hbox : s.box with
        | none => rfl
        | some x =>
            -- what was in the box is copied, or displayed already
            have hheld := hs hbusy x hbox
            simp [lastOf_append, hheld]
      next => cases hstep
  | finish =>
      unfold ofFn step at hstep
      dsimp only at hstep
      split at hstep
      next =>
        cases hstep
        exact ⟨nofun, (List.append_nil _).symm, rfl⟩
      next => cases hstep

/-- What has been written since a state is what is going to be displayed. -/
def Since (s t : State X) : Prop :=
  Held t ∧ ∃ new, t.written = s.written ++ new ∧ newest t = lastOf (newest s) new

theorem since_self {s : State X} (hs : Held s) : Since s s :=
  ⟨hs, [], (List.append_nil _).symm, (lastOf_nil _).symm⟩

theorem since_step {s t t' : State X} {a : Action X} (hs : Since s t)
    (h : Guarded (ofFn step) Undisturbed t a t') : Since s t' := by
  rcases hs with ⟨hheld, new, hwritten, hnewest⟩
  rcases newest_step hheld h with ⟨hheld', hwritten', hnewest'⟩
  refine ⟨hheld', new ++ a.value, ?_, ?_⟩
  · rw [hwritten', hwritten, List.append_assoc]
  · rw [hnewest', hnewest, lastOf_append]

theorem since_run {s s' : State X} {as : List (Action X)} (hs : Held s)
    (h : Run (Guarded (ofFn step) Undisturbed) s as s') : Since s s' :=
  h.invariant (fun _ _ _ hstep ht => since_step ht hstep) (since_self hs)

/-- At rest the last value is displayed, if any was written in the run. -/
theorem shown_at_rest {s s' : State X} {as : List (Action X)} (hs : Held s)
    (h : Run (Guarded (ofFn step) Undisturbed) s as s') (hcopied : s'.copied = [])
    (hbox : s'.box = none) (hqueue : s'.queue = [])
    (hmore : s.written.length < s'.written.length) : s'.written.getLast? = some s'.shown := by
  rcases since_run hs h with ⟨-, new, hwritten, hnewest⟩
  rcases List.eq_nil_or_concat new with rfl | ⟨front, x, rfl⟩
  · rw [hwritten, List.append_nil] at hmore
    exact absurd hmore (Nat.lt_irrefl _)
  · rw [List.concat_eq_append] at hwritten hnewest
    have hshown : newest s' = s'.shown := by
      unfold newest
      rw [hcopied, hbox, hqueue]
      rfl
    rw [lastOf_append_singleton, hshown] at hnewest
    rw [hwritten, ← List.append_assoc, List.getLast?_append, hnewest]
    rfl

end LatestValue
