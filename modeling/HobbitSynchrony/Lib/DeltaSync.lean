import Mathlib.Algebra.BigOperators.Group.Finset.Basic
import Mathlib.Algebra.BigOperators.Group.List.Basic
import Mathlib.Algebra.BigOperators.Pi
import Mathlib.Data.Fintype.Basic
import Mathlib.Tactic.Abel
import HobbitSynchrony.Lib.Run

/-! # A value replicated by deltas

What a group of replicas that exchange *changes* of one value is for. Every
replica has the live `value` and the `shared` part of it that it has already
told the others about. Three things happen, in any order:

* `change i d`: the value changes locally by `d`;
* `publish i`: replica `i` sends the difference between its value and its
  shared part to every other replica, and the shared part catches up;
* `deliver i`: replica `i` takes the oldest delta from its inbox and adds it
  to its value *and* to its shared part.

`conserved` is the invariant: what a replica shares, plus what is on its way
to it, plus what nobody has published yet, is the start value plus all local
changes. `quiescent_value` is what it gives once everything is published and
delivered.
-/

namespace DeltaSync

open Transition

universe u v

/-- One value on the replicas `ι`. -/
structure State (ι : Type u) (G : Type v) where
  value : ι → G
  shared : ι → G
  inbox : ι → List G

inductive Action (ι : Type u) (G : Type v) where
  | change (i : ι) (d : G)
  | publish (i : ι)
  | deliver (i : ι)

variable {ι : Type u} {G : Type v} [AddCommGroup G]

/-- The sum of the local changes in a run. -/
def changes (as : List (Action ι G)) : G :=
  (as.map fun a => match a with
    | .change _ d => d
    | _ => 0).sum

@[simp] theorem changes_nil : changes ([] : List (Action ι G)) = 0 := rfl

@[simp] theorem changes_append (as bs : List (Action ι G)) :
    changes (as ++ bs) = changes as + changes bs := by
  simp [changes]

@[simp] theorem changes_change (i : ι) (d : G) : changes [Action.change i d] = d := by
  simp [changes]

@[simp] theorem changes_publish (i : ι) : changes [(Action.publish i : Action ι G)] = 0 := by
  simp [changes]

@[simp] theorem changes_deliver (i : ι) : changes [(Action.deliver i : Action ι G)] = 0 := by
  simp [changes]

@[simp] theorem changes_replicate_deliver (k : ℕ) (i : ι) :
    changes (List.replicate k (Action.deliver i : Action ι G)) = 0 := by
  induction k with
  | zero => rfl
  | succ k ih => rw [List.replicate_succ', changes_append, ih, changes_deliver, add_zero]

variable [DecidableEq ι]

/-! ## The steps -/

/-- What replica `i` has not told the others yet. -/
def State.pending (s : State ι G) (i : ι) : G := s.value i - s.shared i

/-- A local change. -/
def State.change (s : State ι G) (i : ι) (d : G) : State ι G :=
  { s with value := Function.update s.value i (s.value i + d) }

/-- Send the pending difference to everybody else. -/
def State.publish (s : State ι G) (i : ι) : State ι G :=
  { s with
    shared := Function.update s.shared i (s.value i)
    inbox := fun j => if j = i then s.inbox j else s.inbox j ++ [s.pending i] }

/-- Take the delta `d` from the inbox, leaving `rest` in it. -/
def State.deliver (s : State ι G) (i : ι) (d : G) (rest : List G) : State ι G :=
  { value := Function.update s.value i (s.value i + d)
    shared := Function.update s.shared i (s.shared i + d)
    inbox := Function.update s.inbox i rest }

def step (s : State ι G) : Action ι G → Option (State ι G)
  | .change i d => some (s.change i d)
  | .publish i => some (s.publish i)
  | .deliver i =>
    match s.inbox i with
    | [] => none
    | d :: rest => some (s.deliver i d rest)

/-- Delivering all of `ds` is delivering their sum. -/
theorem run_deliver_all (s : State ι G) (i : ι) (ds rest : List G)
    (h : s.inbox i = ds ++ rest) :
    Run (ofFn step) s (List.replicate ds.length (.deliver i)) (s.deliver i ds.sum rest) := by
  induction ds generalizing s with
  | nil =>
      have hsame : s.deliver i ([] : List G).sum rest = s := by
        rw [List.nil_append] at h
        simp only [State.deliver, List.sum_nil, add_zero, ← h, Function.update_eq_self]
      rw [hsame]
      exact Run.nil
  | cons d ds ih =>
      -- the first delta alone, then all others in one go
      have hfirst : step s (.deliver i) = some (s.deliver i d (ds ++ rest)) := by
        simp only [step, h, List.cons_append]
      have hinbox : (s.deliver i d (ds ++ rest)).inbox i = ds ++ rest := Function.update_self ..
      have htwo : (s.deliver i d (ds ++ rest)).deliver i ds.sum rest =
          s.deliver i (d :: ds).sum rest := by
        simp [State.deliver, add_assoc]
      have hrest := ih (s.deliver i d (ds ++ rest)) hinbox
      rw [htwo] at hrest
      exact (Run.single hfirst).append hrest

/-- Every replica starts with the same, fully shared value. -/
def start (v : G) : State ι G :=
  { value := fun _ => v, shared := fun _ => v, inbox := fun _ => [] }

/-! ## The effect of a step on the pending differences -/

theorem pending_change (s : State ι G) (i : ι) (d : G) :
    (s.change i d).pending = Function.update s.pending i (s.pending i + d) := by
  funext j
  by_cases hj : j = i
  · subst hj
    simp only [State.pending, State.change, Function.update_self]
    abel
  · simp [State.pending, State.change, hj]

theorem pending_publish (s : State ι G) (i : ι) :
    (s.publish i).pending = Function.update s.pending i 0 := by
  funext j
  by_cases hj : j = i
  · subst hj
    simp [State.pending, State.publish]
  · simp [State.pending, State.publish, hj]

theorem pending_deliver (s : State ι G) (i : ι) (d : G) (rest : List G) :
    (s.deliver i d rest).pending = s.pending := by
  funext j
  by_cases hj : j = i
  · -- the value and the shared part grow by the same
    subst hj
    simp only [State.pending, State.deliver, Function.update_self]
    abel
  · simp [State.pending, State.deliver, hj]

/-! ## Conservation -/

variable [Fintype ι]

/-- Replacing one entry of a sum. -/
theorem sum_update_add (f : ι → G) (i : ι) (x : G) :
    ∑ j, Function.update f i x j + f i = ∑ j, f j + x := by
  -- both sums are the sum over the others and one entry
  have h := Finset.sum_update_of_mem (Finset.mem_univ i) f x
  have h' := Finset.add_sum_erase Finset.univ f (Finset.mem_univ i)
  rw [Finset.sdiff_singleton_eq_erase] at h
  rw [h, ← h']
  abel

/-- What replica `i` will share once everything is published and delivered. -/
def State.settled (s : State ι G) (i : ι) : G :=
  s.shared i + (s.inbox i).sum + ∑ j, s.pending j

theorem settled_change (s : State ι G) (i k : ι) (d : G) :
    (s.change i d).settled k = s.settled k + d := by
  have h := sum_update_add s.pending i (s.pending i + d)
  -- what is pending grows by the change, and nothing else changes
  have hsum : ∑ j, (s.change i d).pending j = ∑ j, s.pending j + d := by
    rw [pending_change]
    have h' : ∑ j, Function.update s.pending i (s.pending i + d) j + s.pending i =
        (∑ j, s.pending j + d) + s.pending i := by
      rw [h]
      abel
    exact add_right_cancel h'
  simp only [State.settled, hsum]
  simp only [State.change]
  abel

theorem settled_publish (s : State ι G) (i k : ι) :
    (s.publish i).settled k = s.settled k := by
  have h := sum_update_add s.pending i 0
  -- what is pending loses what is sent
  have hsum : ∑ j, (s.publish i).pending j = ∑ j, s.pending j - s.pending i := by
    rw [pending_publish]
    exact eq_sub_of_add_eq (by simpa using h)
  simp only [State.settled, hsum]
  by_cases hk : k = i
  · -- the publisher: its shared part grows by what leaves the pending sum
    subst hk
    simp only [State.publish, Function.update_self, if_true, State.pending]
    abel
  · -- the others: the delta is now on its way
    simp only [State.publish, Function.update_of_ne hk, if_neg hk, List.sum_append,
      List.sum_singleton]
    abel

theorem settled_deliver (s : State ι G) (i k : ι) (d : G) (rest : List G)
    (h : s.inbox i = d :: rest) : (s.deliver i d rest).settled k = s.settled k := by
  simp only [State.settled, pending_deliver]
  by_cases hk : k = i
  · -- the delta moves from the inbox to the shared part
    subst hk
    simp only [State.deliver, Function.update_self, h, List.sum_cons]
    abel
  · simp only [State.deliver, Function.update_of_ne hk]

theorem settled_step {s s' : State ι G} {a : Action ι G} (h : step s a = some s') (k : ι) :
    s'.settled k = s.settled k + changes [a] := by
  cases a with
  | change i d =>
      obtain rfl : s.change i d = s' := by simpa [step] using h
      simpa using settled_change s i k d
  | publish i =>
      obtain rfl : s.publish i = s' := by simpa [step] using h
      simpa using settled_publish s i k
  | deliver i =>
      cases hin : s.inbox i with
      | nil => simp [step, hin] at h
      | cons d rest =>
          obtain rfl : s.deliver i d rest = s' := by simpa [step, hin] using h
          simpa using settled_deliver s i k d rest hin

/-- The invariant: no change is lost and none is counted twice. -/
theorem conserved {v : G} {s : State ι G} {as : List (Action ι G)}
    (h : Run (ofFn step) (start v) as s) (k : ι) : s.settled k = v + changes as := by
  induction h with
  | nil => simp [State.settled, State.pending, start]
  | snoc _ hs ih =>
      -- every step keeps what is settled, up to its own change
      rw [settled_step hs, ih, changes_append]
      abel

/-- Once everything is delivered and published, every replica has the start
value plus all changes. -/
theorem quiescent_value {v : G} {s : State ι G} {as : List (Action ι G)}
    (h : Run (ofFn step) (start v) as s) (hin : ∀ i, s.inbox i = [])
    (hpub : ∀ i, s.shared i = s.value i) (k : ι) : s.value k = v + changes as := by
  have hpend : ∀ i, s.pending i = 0 := by
    intro i
    simp [State.pending, hpub i]
  have hc := conserved h k
  simpa [State.settled, hin k, hpend, hpub k] using hc

end DeltaSync
