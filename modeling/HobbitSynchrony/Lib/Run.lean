import Mathlib.Data.List.Forall2
import Mathlib.Data.List.Induction
import Mathlib.Data.List.Infix

/-! # Runs of labelled transition systems

A transition system is an action relation `step s a s'`. This file has the
runs of such a system and the rules the protocol models use:

* `Run.invariant`: an inductive invariant holds after every run;
* `Run.length_add_le`, `exists_run_of_measure`: a decreasing measure bounds the
  runs, and leads to a goal;
* `Run.append`, `Run.split`: runs are put together and taken apart;
* `Run.simulation`: a step correspondence extends to whole runs; a concrete
  action can perform any number of abstract ones (none: a stutter);
* `everyStep_iff`: two step properties that agree as long as one of them has
  held so far agree on whole runs;
* `exec`, `run_of_exec` and `run_of_exec_guardFn`: runs of an executable step
  function, and the runs whose steps all meet a guard.
-/

namespace Transition

universe u v w x

/-- The action relation of an executable step function. -/
def ofFn {σ : Type u} {α : Type v} (f : σ → α → Option σ) : σ → α → σ → Prop :=
  fun s a s' => f s a = some s'

/-- The steps taken in a state, and with an action, that meet `C`. -/
def Guarded {σ : Type u} {α : Type v} (step : σ → α → σ → Prop) (C : σ → α → Prop) :
    σ → α → σ → Prop :=
  fun s a s' => step s a s' ∧ C s a

/-- `Run step s₀ as s`: the actions `as`, taken in order from `s₀`, lead to `s`. -/
inductive Run {σ : Type u} {α : Type v} (step : σ → α → σ → Prop) (s₀ : σ) :
    List α → σ → Prop where
  | nil : Run step s₀ [] s₀
  | snoc {as : List α} {a : α} {s s' : σ} :
      Run step s₀ as s → step s a s' → Run step s₀ (as ++ [a]) s'

/-- A property of every step of the run `as` from `s₀`. -/
def EveryStep {σ : Type u} {α : Type v} (step : σ → α → σ → Prop) (s₀ : σ) (as : List α)
    (P : σ → α → σ → Prop) : Prop :=
  ∀ bs a s s', bs ++ [a] <+: as → Run step s₀ bs s → step s a s' → P s a s'

/-! ## Invariants -/

/-- An inductive invariant holds after every run. -/
theorem Run.invariant {σ : Type u} {α : Type v} {step : σ → α → σ → Prop} {s₀ s : σ}
    {as : List α} {Inv : σ → Prop} (h : Run step s₀ as s)
    (hstep : ∀ s a s', step s a s' → Inv s → Inv s') (h₀ : Inv s₀) : Inv s := by
  induction h with
  | nil => exact h₀
  | snoc _ hs ih => exact hstep _ _ _ hs ih

/-- A measure that every step lowers bounds the length of the runs. -/
theorem Run.length_add_le {σ : Type u} {α : Type v} {step : σ → α → σ → Prop} {s₀ s : σ}
    {as : List α} {Inv : σ → Prop} {μ : σ → ℕ} (h : Run step s₀ as s)
    (hstep : ∀ s a s', step s a s' → Inv s → Inv s' ∧ μ s' < μ s) (h₀ : Inv s₀) :
    Inv s ∧ as.length + μ s ≤ μ s₀ := by
  induction h with
  | nil => exact ⟨h₀, (Nat.zero_add _).le⟩
  | snoc _ hs ih =>
      rcases ih with ⟨hinv, hle⟩
      rcases hstep _ _ _ hs hinv with ⟨hinv', hlt⟩
      refine ⟨hinv', ?_⟩
      rw [List.length_append, List.length_singleton]
      omega

/-- A run of a smaller action relation is a run of a larger one. -/
theorem Run.mono {σ : Type u} {α : Type v} {step step' : σ → α → σ → Prop} {s₀ s : σ}
    {as : List α} (h : Run step s₀ as s) (hsub : ∀ s a s', step s a s' → step' s a s') :
    Run step' s₀ as s := by
  induction h with
  | nil => exact Run.nil
  | snoc _ hs ih => exact Run.snoc ih (hsub _ _ _ hs)

/-- A run whose actions meet `C` in every state is a guarded run. -/
theorem Run.guarded {σ : Type u} {α : Type v} {step : σ → α → σ → Prop} {C : σ → α → Prop}
    {s₀ s : σ} {as : List α} (h : Run step s₀ as s) (hC : ∀ a ∈ as, ∀ s, C s a) :
    Run (Guarded step C) s₀ as s := by
  induction h with
  | nil => exact Run.nil
  | snoc _ hs ih =>
      -- the last action is one of `as`, so it meets `C` too
      refine Run.snoc (ih fun a ha => hC a (List.mem_append_left _ ha)) ⟨hs, ?_⟩
      exact hC _ (List.mem_append_right _ (List.mem_singleton.2 rfl)) _

/-- Runs compose. -/
theorem Run.append {σ : Type u} {α : Type v} {step : σ → α → σ → Prop} {s₀ s₁ s₂ : σ}
    {as bs : List α} (h₁ : Run step s₀ as s₁) (h₂ : Run step s₁ bs s₂) :
    Run step s₀ (as ++ bs) s₂ := by
  induction h₂ with
  | nil => simpa using h₁
  | snoc _ hs ih =>
      rw [← List.append_assoc]
      exact Run.snoc ih hs

/-- A single step is a run. -/
theorem Run.single {σ : Type u} {α : Type v} {step : σ → α → σ → Prop} {s s' : σ} {a : α}
    (h : step s a s') : Run step s [a] s' :=
  show Run step s ([] ++ [a]) s' from Run.snoc Run.nil h

/-- If `a` can be taken, and lowers a measure, as long as the goal is not reached, then
the goal is reached by taking `a` so many times. -/
theorem exists_run_of_measure {σ : Type u} {α : Type v} {step : σ → α → σ → Prop} {a : α}
    {Inv : σ → Prop} (Goal : σ → Prop) (μ : σ → ℕ)
    (hstep : ∀ s, Inv s → ¬ Goal s → ∃ s', step s a s' ∧ Inv s' ∧ μ s' < μ s) {s : σ}
    (hs : Inv s) :
    ∃ k s', k ≤ μ s ∧ Run step s (List.replicate k a) s' ∧ Inv s' ∧ Goal s' := by
  induction hμ : μ s using Nat.strong_induction_on generalizing s with
  | _ n ih =>
      by_cases hgoal : Goal s
      · exact ⟨0, s, Nat.zero_le n, Run.nil, hs, hgoal⟩
      · rcases hstep s hs hgoal with ⟨t, hst, ht, hlt⟩
        rcases ih (μ t) (hμ ▸ hlt) ht rfl with ⟨k, s', hk, hrun, hs', hgoal'⟩
        refine ⟨k + 1, s', by omega, ?_, hs', hgoal'⟩
        exact (Run.single hst).append hrun

/-- The empty run ends where it starts. -/
theorem Run.eq_of_nil {σ : Type u} {α : Type v} {step : σ → α → σ → Prop} {s s' : σ}
    (h : Run step s [] s') : s' = s := by
  generalize has : ([] : List α) = as at h
  cases h with
  | nil => trivial
  | snoc hr hs => simp at has

/-- The last step of a run. -/
theorem Run.snoc_inv {σ : Type u} {α : Type v} {step : σ → α → σ → Prop} {s s' : σ}
    {as : List α} {a : α} (h : Run step s (as ++ [a]) s') :
    ∃ t, Run step s as t ∧ step t a s' := by
  generalize has : as ++ [a] = as' at h
  cases h with
  | nil => simp at has
  | snoc hr hs =>
      obtain ⟨rfl, heq⟩ := List.append_inj' has rfl
      obtain rfl := List.singleton_inj.1 heq
      exact ⟨_, hr, hs⟩

/-- A run can be taken apart anywhere. -/
theorem Run.split {σ : Type u} {α : Type v} {step : σ → α → σ → Prop} {s s' : σ}
    {as : List α} (bs : List α) (h : Run step s (as ++ bs) s') :
    ∃ t, Run step s as t ∧ Run step t bs s' := by
  induction bs using List.reverseRecOn generalizing s' with
  | nil =>
      rw [List.append_nil] at h
      exact ⟨s', h, Run.nil⟩
  | append_singleton bs b ih =>
      rw [← List.append_assoc] at h
      rcases h.snoc_inv with ⟨t, hr, hs⟩
      rcases ih hr with ⟨t', hr', hr''⟩
      exact ⟨t', hr', Run.snoc hr'' hs⟩

/-- The first step of a run. -/
theorem Run.cons_inv {σ : Type u} {α : Type v} {step : σ → α → σ → Prop} {s s' : σ}
    {a : α} {as : List α} (h : Run step s (a :: as) s') :
    ∃ t, step s a t ∧ Run step t as s' := by
  have hwhole : Run step s ([a] ++ as) s' := h
  rcases hwhole.split as with ⟨t, hfirst, hrest⟩
  have hsnoc : Run step s ([] ++ [a]) t := hfirst
  rcases hsnoc.snoc_inv with ⟨t', hnil, hs⟩
  obtain rfl := hnil.eq_of_nil
  exact ⟨t, hs, hrest⟩

/-! ## Simulation -/

/-- A step correspondence under `R` extends to whole runs. A concrete action
can perform any abstract actions it is related to by `L`. -/
theorem Run.simulation {σ : Type u} {α : Type v} {τ : Type w} {β : Type x}
    {step : σ → α → σ → Prop} {astep : τ → β → τ → Prop} {R : σ → τ → Prop}
    {L : α → List β → Prop} {s₀ s : σ} {t₀ : τ} {as : List α}
    (hstep : ∀ s a s' t, step s a s' → R s t →
      ∃ bs t', L a bs ∧ Run astep t bs t' ∧ R s' t')
    (h₀ : R s₀ t₀) (h : Run step s₀ as s) :
    ∃ bss t, List.Forall₂ L as bss ∧ Run astep t₀ bss.flatten t ∧ R s t := by
  induction h with
  | nil => exact ⟨[], t₀, List.Forall₂.nil, Run.nil, h₀⟩
  -- the abstract actions so far, then those of the last step
  | snoc _ hs ih =>
      rcases ih with ⟨bss, t, hL, hrun, hR⟩
      rcases hstep _ _ _ t hs hR with ⟨bs, t', hl, hrun', hR'⟩
      refine ⟨bss ++ [bs], t', ?_, ?_, hR'⟩
      · exact List.rel_append hL (List.Forall₂.cons hl List.Forall₂.nil)
      · rw [List.flatten_append, List.flatten_singleton]
        exact hrun.append hrun'

/-! ## Two step properties that hold on the same runs -/

/-- If `C` keeps the invariant and, under the invariant, a step meets `C`
exactly when it meets `P`, then the runs all of whose steps meet `C` are the
runs all of whose steps meet `P`. -/
theorem everyStep_iff {σ : Type u} {α : Type v} {step : σ → α → σ → Prop} {s₀ : σ}
    {as : List α} (Inv : σ → Prop) (C P : σ → α → σ → Prop) (h₀ : Inv s₀)
    (hinv : ∀ s a s', Inv s → step s a s' → C s a s' → Inv s')
    (hiff : ∀ s a s', Inv s → step s a s' → (C s a s' ↔ P s a s')) :
    EveryStep step s₀ as C ↔ EveryStep step s₀ as P := by
  -- the invariant along a run all of whose steps meet `Q`, for `Q` either property
  have key : ∀ Q : σ → α → σ → Prop,
      (∀ s a s', Inv s → step s a s' → Q s a s' → C s a s') →
      EveryStep step s₀ as Q → ∀ bs s, bs <+: as → Run step s₀ bs s → Inv s := by
    intro Q hQ hall bs s hpre hrun
    induction hrun with
    | nil => exact h₀
    | snoc hr hs ih =>
        have hI := ih ((List.prefix_append _ _).trans hpre)
        exact hinv _ _ _ hI hs (hQ _ _ _ hI hs (hall _ _ _ _ hpre hr hs))
  constructor
  · intro hC bs a s s' hpre hrun hs
    have hI := key C (fun _ _ _ _ _ h => h) hC bs s ((List.prefix_append _ _).trans hpre) hrun
    exact (hiff _ _ _ hI hs).1 (hC bs a s s' hpre hrun hs)
  · intro hP bs a s s' hpre hrun hs
    have hI := key P (fun s a s' hI hs h => (hiff s a s' hI hs).2 h) hP bs s
      ((List.prefix_append _ _).trans hpre) hrun
    exact (hiff _ _ _ hI hs).2 (hP bs a s s' hpre hrun hs)

/-! ## Executable runs -/

/-- Run an executable step function; `none` if an action is not enabled. -/
def exec {σ : Type u} {α : Type v} (f : σ → α → Option σ) : σ → List α → Option σ
  | s, [] => some s
  | s, a :: as => (f s a).bind fun s' => exec f s' as

theorem run_of_exec {σ : Type u} {α : Type v} {f : σ → α → Option σ} {s s' : σ}
    {as : List α} (h : exec f s as = some s') : Run (ofFn f) s as s' := by
  induction as generalizing s with
  | nil =>
      obtain rfl : s = s' := by simpa [exec] using h
      exact Run.nil
  -- `exec` takes the first action first, a run is built from its end
  | cons a as ih =>
      rcases Option.bind_eq_some_iff.1 h with ⟨t, hst, hrest⟩
      exact (Run.single hst).append (ih hrest)

/-- The steps of `f` that meet `C`, as a function. -/
def guardFn {σ : Type u} {α : Type v} (f : σ → α → Option σ) (C : σ → α → Prop)
    [∀ s a, Decidable (C s a)] : σ → α → Option σ :=
  fun s a => if C s a then f s a else none

theorem run_of_exec_guardFn {σ : Type u} {α : Type v} {f : σ → α → Option σ} {C : σ → α → Prop}
    [∀ s a, Decidable (C s a)] {s s' : σ} {as : List α} (h : exec (guardFn f C) s as = some s') :
    Run (Guarded (ofFn f) C) s as s' := by
  refine (run_of_exec h).mono fun s a s' hs => ?_
  -- the guarded function takes no step that fails `C`
  by_cases hC : C s a
  · exact ⟨(if_pos hC).symm.trans hs, hC⟩
  · have hnone : guardFn f C s a = none := if_neg hC
    rw [ofFn, hnone] at hs
    cases hs

/-- The state at the end of a trace whose steps all meet `C`, and the run to it. -/
theorem run_of_isSome {σ : Type u} {α : Type v} {f : σ → α → Option σ} {C : σ → α → Prop}
    [∀ s a, Decidable (C s a)] {s : σ} {as : List α} (h : (exec (guardFn f C) s as).isSome) :
    Run (Guarded (ofFn f) C) s as ((exec (guardFn f C) s as).get h) :=
  run_of_exec_guardFn (Option.some_get h).symm

end Transition
