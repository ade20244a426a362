import HobbitSynchrony.Lib.DeltaSync

/-! # What is on its way, as a sum

Replicas that tell each other their changes, over any network: of what is on its way
to a replica only the sum is kept, in whatever order it comes, and through however
many hands.

* `State`, `Action`, `step`: local changes, publishing, receiving;
* `State.settled`: what a replica has shared when all has been published and received;
* `settled_step`: a step changes it by its local change only;
* `value_at_rest`: at rest it is the value.
-/

namespace DeltaLedger

universe u v

/-- The values of the replicas, what they have shared of them, and what is on its
way to them. -/
structure State (ι : Type u) (G : Type v) where
  value : ι → G
  shared : ι → G
  toCome : ι → G

inductive Action (ι : Type u) (G : Type v) where
  | change (i : ι) (d : G)
  | publish (i : ι)
  | receive (i : ι) (d : G)

variable {ι : Type u} {G : Type v} [AddCommGroup G]

/-- What replica `i` has not shared. -/
def State.pending (s : State ι G) (i : ι) : G := s.value i - s.shared i

/-- The change of the replicated value by an action. -/
def Action.amount : Action ι G → G
  | .change _ d => d
  | _ => 0

variable [DecidableEq ι]

/-- The steps. What is published comes to all others. -/
def step (s : State ι G) : Action ι G → State ι G
  | .change i d => { s with value := Function.update s.value i (s.value i + d) }
  | .publish i =>
    { s with
      shared := Function.update s.shared i (s.value i)
      toCome := fun j => if j = i then s.toCome j else s.toCome j + s.pending i }
  | .receive i d =>
    { value := Function.update s.value i (s.value i + d)
      shared := Function.update s.shared i (s.shared i + d)
      toCome := Function.update s.toCome i (s.toCome i - d) }

/-- One term of a sum changes. -/
theorem sum_change {t : Finset ι} {f g : ι → G} {i : ι} (hi : i ∈ t)
    (h : ∀ j, j ≠ i → g j = f j) : ∑ j ∈ t, g j = ∑ j ∈ t, f j + (g i - f i) := by
  have hrest : ∑ j ∈ t.erase i, g j = ∑ j ∈ t.erase i, f j :=
    Finset.sum_congr rfl fun j hj => h j (Finset.ne_of_mem_erase hj)
  rw [← Finset.add_sum_erase t g hi, ← Finset.add_sum_erase t f hi, hrest]
  abel

theorem pending_change (s : State ι G) (i : ι) (d : G) :
    (step s (.change i d)).pending = Function.update s.pending i (s.pending i + d) := by
  funext j
  by_cases hj : j = i
  · subst hj
    simp only [State.pending, step, Function.update_self]
    abel
  · simp [State.pending, step, hj]

theorem pending_publish (s : State ι G) (i : ι) :
    (step s (.publish i)).pending = Function.update s.pending i 0 := by
  funext j
  by_cases hj : j = i
  · subst hj
    simp [State.pending, step]
  · simp [State.pending, step, hj]

theorem pending_receive (s : State ι G) (i : ι) (d : G) :
    (step s (.receive i d)).pending = s.pending := by
  funext j
  by_cases hj : j = i
  · -- the value and the shared part grow by the same
    subst hj
    simp only [State.pending, step, Function.update_self]
    abel
  · simp [State.pending, step, hj]

/-! ## Conservation -/

variable [Fintype ι]

/-- What replica `i` will have shared once everything is published and received. -/
def State.settled (s : State ι G) (i : ι) : G := s.shared i + s.toCome i + ∑ j, s.pending j

/-- No step loses a change, and none counts one twice. -/
theorem settled_step (s : State ι G) (a : Action ι G) (k : ι) :
    (step s a).settled k = s.settled k + a.amount := by
  unfold State.settled
  cases a with
  | change i d =>
      have hsum : ∑ j, (step s (.change i d)).pending j = ∑ j, s.pending j + d := by
        have h := DeltaSync.sum_update_add s.pending i (s.pending i + d)
        rw [pending_change]
        apply add_right_cancel (b := s.pending i)
        rw [h]
        abel
      rw [hsum]
      simp only [step, Action.amount]
      abel
  | publish i =>
      have hsum : ∑ j, (step s (.publish i)).pending j = ∑ j, s.pending j - s.pending i := by
        have h := DeltaSync.sum_update_add s.pending i 0
        rw [pending_publish]
        exact eq_sub_of_add_eq (by simpa using h)
      rw [hsum]
      by_cases hk : k = i
      · -- the publisher: its shared part grows by what leaves the pending sum
        subst hk
        simp only [step, Function.update_self, if_true, Action.amount, State.pending]
        abel
      · -- the others: what was pending is on its way
        simp only [step, Function.update_of_ne hk, if_neg hk, Action.amount]
        abel
  | receive i d =>
      rw [pending_receive]
      by_cases hk : k = i
      · -- what was on its way is shared
        subst hk
        simp only [step, Function.update_self, Action.amount]
        abel
      · simp only [step, Function.update_of_ne hk, Action.amount]
        abel

omit [DecidableEq ι] in
/-- When everything is shared and nothing is on its way to a replica, it has what
is settled. -/
theorem value_at_rest {s : State ι G} (hshared : ∀ j, s.shared j = s.value j) {k : ι}
    (htoCome : s.toCome k = 0) : s.value k = s.settled k := by
  have hpending : ∀ j, s.pending j = 0 := by
    intro j
    rw [State.pending, hshared, sub_self]
  rw [State.settled, htoCome, Finset.sum_eq_zero fun j _ => hpending j, add_zero, add_zero,
    hshared]

end DeltaLedger
