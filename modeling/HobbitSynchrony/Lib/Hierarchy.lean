import Mathlib.Data.List.Nodup
import Mathlib.Data.List.Perm.Subperm
import Mathlib.Logic.Function.Basic
import Mathlib.Logic.Relation

/-! # Nodes with parents

Nodes of which each has one place: among the roots, or among the nodes that
another one holds. Nothing keeps a node from being its own ancestor; then it is
cut off from the roots.

* `Hierarchy`: the nodes with their places, `held none` for the roots;
* `perm_places`: the places together are the nodes;
* `AtDepth`: the nodes that can be reached from the roots, with their depths;
* `AtDepth.not_cycle`, `AtDepth.lt_length`: they are on no cycle, and not deep;
* `add`, `move`: a new root, and a node put elsewhere;
* `Rooted.add`, `Rooted.move`: all nodes stay within reach if no node is moved
  under itself.
-/

universe u

/-- Nodes, their parents, and what each of them holds. -/
structure Hierarchy (α : Type u) where
  nodes : List α
  parent : α → Option α
  held : Option α → List α
  nodup_nodes : nodes.Nodup
  nodup_held : ∀ q, (held q).Nodup
  mem_held : ∀ x q, x ∈ held q ↔ x ∈ nodes ∧ parent x = q
  parent_mem : ∀ x ∈ nodes, ∀ p, parent x = some p → p ∈ nodes

namespace Hierarchy

variable {α : Type u} (h : Hierarchy α)

/-- Every node occurs once among the roots and what the nodes hold, taken together. -/
theorem perm_places :
    (h.held none ++ h.nodes.flatMap fun p => h.held (some p)).Perm h.nodes := by
  have hnodup : (h.held none ++ h.nodes.flatMap fun p => h.held (some p)).Nodup := by
    rw [List.nodup_append]
    refine ⟨h.nodup_held none, ?_, ?_⟩
    · rw [List.nodup_flatMap]
      refine ⟨fun p _ => h.nodup_held (some p), h.nodup_nodes.imp ?_⟩
      intro p p' hne x hx hx'
      have hp := ((h.mem_held x _).1 hx).2
      have hp' := ((h.mem_held x _).1 hx').2
      exact hne (Option.some.inj (hp.symm.trans hp'))
    · intro x hx y hy heq
      rcases List.mem_flatMap.1 hy with ⟨p, -, hp⟩
      have hroot := ((h.mem_held x _).1 hx).2
      have hparent := ((h.mem_held y _).1 hp).2
      rw [heq, hparent] at hroot
      cases hroot
  rw [List.perm_ext_iff_of_nodup hnodup h.nodup_nodes]
  intro x
  rw [List.mem_append, List.mem_flatMap]
  constructor
  · rintro (hx | ⟨p, -, hx⟩)
    · exact ((h.mem_held x _).1 hx).1
    · exact ((h.mem_held x _).1 hx).1
  · intro hx
    cases hparent : h.parent x with
    | none => exact Or.inl ((h.mem_held x none).2 ⟨hx, hparent⟩)
    | some p =>
        exact Or.inr ⟨p, h.parent_mem x hx p hparent, (h.mem_held x (some p)).2 ⟨hx, hparent⟩⟩

/-! ## Depths -/

/-- A node that can be reached from the roots, and the number of steps. -/
inductive AtDepth : ℕ → α → Prop
  | root {x : α} : x ∈ h.held none → AtDepth 0 x
  | child {k : ℕ} {x y : α} : AtDepth k x → y ∈ h.held (some x) → AtDepth (k + 1) y

/-- `x` holds `y`. -/
def Holds (x y : α) : Prop := y ∈ h.held (some x)

/-- `y` is `x` or one of its descendants. -/
def Under : α → α → Prop := Relation.ReflTransGen h.Holds

variable {h} {k k' : ℕ} {x y z : α}

theorem AtDepth.mem (hx : h.AtDepth k x) : x ∈ h.nodes := by
  cases hx with
  | root hroot => exact ((h.mem_held x _).1 hroot).1
  | child _ hheld => exact ((h.mem_held x _).1 hheld).1

/-- There is one parent, so there is one depth. -/
theorem AtDepth.unique (hx : h.AtDepth k x) (hx' : h.AtDepth k' x) : k = k' := by
  induction hx generalizing k' with
  | root hroot =>
      have hnone := ((h.mem_held _ _).1 hroot).2
      cases hx' with
      | root _ => trivial
      | child _ hheld =>
          have hsome := ((h.mem_held _ _).1 hheld).2
          rw [hnone] at hsome
          cases hsome
  | child _ hheld ih =>
      have hsome := ((h.mem_held _ _).1 hheld).2
      cases hx' with
      | root hroot =>
          have hnone := ((h.mem_held _ _).1 hroot).2
          rw [hsome] at hnone
          cases hnone
      | child hparent hheld' =>
          have hsome' := ((h.mem_held _ _).1 hheld').2
          rw [hsome] at hsome'
          cases hsome'
          rw [ih hparent]

/-- What is under a node that can be reached is at least as deep. -/
theorem AtDepth.under (hx : h.AtDepth k x) (hxy : h.Under x y) : ∃ m, k ≤ m ∧ h.AtDepth m y := by
  induction hxy with
  | refl => exact ⟨k, Nat.le_refl k, hx⟩
  | tail _ hheld ih =>
      rcases ih with ⟨m, hm, hy⟩
      exact ⟨m + 1, by omega, hy.child hheld⟩

/-- A node that can be reached is on no cycle. -/
theorem AtDepth.not_cycle (hx : h.AtDepth k x) : ¬ Relation.TransGen h.Holds x x := by
  intro hcycle
  rcases Relation.TransGen.tail'_iff.1 hcycle with ⟨y, hxy, hyx⟩
  rcases hx.under hxy with ⟨m, hm, hy⟩
  have hdepth := hx.unique (hy.child hyx)
  omega

/-- The nodes above a node are different ones. -/
theorem AtDepth.exists_chain (hx : h.AtDepth k x) :
    ∃ chain : List α, chain.length = k + 1 ∧ chain.Nodup ∧
      ∀ y ∈ chain, ∃ j ≤ k, h.AtDepth j y := by
  induction hx with
  | @root x hroot =>
      refine ⟨[x], rfl, List.nodup_singleton x, ?_⟩
      intro y hy
      rw [List.mem_singleton.1 hy]
      exact ⟨0, Nat.le_refl 0, .root hroot⟩
  | @child k x y hparent hheld ih =>
      rcases ih with ⟨chain, hlen, hnodup, hdepth⟩
      have hy : h.AtDepth (k + 1) y := hparent.child hheld
      refine ⟨y :: chain, by rw [List.length_cons, hlen], ?_, ?_⟩
      · refine List.nodup_cons.2 ⟨fun hmem => ?_, hnodup⟩
        rcases hdepth y hmem with ⟨j, hj, hy'⟩
        have heq := hy.unique hy'
        omega
      · intro z hz
        rcases List.mem_cons.1 hz with rfl | hz
        · exact ⟨k + 1, Nat.le_refl _, hy⟩
        · rcases hdepth z hz with ⟨j, hj, hz'⟩
          exact ⟨j, by omega, hz'⟩

/-- A depth is less than the number of nodes. -/
theorem AtDepth.lt_length (hx : h.AtDepth k x) : k < h.nodes.length := by
  rcases hx.exists_chain with ⟨chain, hlen, hnodup, hdepth⟩
  have hsub : chain ⊆ h.nodes := by
    intro y hy
    rcases hdepth y hy with ⟨j, -, hy'⟩
    exact hy'.mem
  have hle := (hnodup.subperm hsub).length_le
  omega

/-- A node is under one node of a depth only. -/
theorem under_unique (hx : h.AtDepth k x) (hy : h.AtDepth k y) (hxz : h.Under x z)
    (hyz : h.Under y z) : x = y := by
  induction hxz with
  | refl =>
      rcases Relation.ReflTransGen.cases_tail hyz with heq | ⟨w, hyw, hheld⟩
      · exact heq
      · rcases hy.under hyw with ⟨m, hm, hw⟩
        have hdepth := hx.unique (hw.child hheld)
        omega
  | tail hxw hheld ih =>
      rcases Relation.ReflTransGen.cases_tail hyz with rfl | ⟨w', hyw', hheld'⟩
      · rcases hx.under hxw with ⟨m, hm, hw⟩
        have hdepth := hy.unique (hw.child hheld)
        omega
      · have hparent := ((h.mem_held _ _).1 hheld).2
        have hparent' := ((h.mem_held _ _).1 hheld').2
        rw [hparent] at hparent'
        cases hparent'
        exact ih hyw'

/-! ## New nodes and moves -/

/-- No nodes. -/
def empty (α : Type u) : Hierarchy α where
  nodes := []
  parent := fun _ => none
  held := fun _ => []
  nodup_nodes := List.nodup_nil
  nodup_held := fun _ => List.nodup_nil
  mem_held := by simp
  parent_mem := by simp

variable [DecidableEq α]

/-- A new root, behind the others. -/
def add (h : Hierarchy α) (x : α) (hx : x ∉ h.nodes) : Hierarchy α where
  nodes := h.nodes ++ [x]
  parent := Function.update h.parent x none
  held := fun q => h.held q ++ if q = none then [x] else []
  nodup_nodes := List.nodup_append.2 ⟨h.nodup_nodes, List.nodup_singleton x, by
    intro y hy z hz heq
    rw [List.mem_singleton.1 hz] at heq
    exact hx (heq ▸ hy)⟩
  nodup_held := by
    intro q
    have hnotMem : x ∉ h.held q := fun hmem => hx ((h.mem_held x q).1 hmem).1
    by_cases hq : q = none
    · rw [if_pos hq]
      refine List.nodup_append.2 ⟨h.nodup_held q, List.nodup_singleton x, ?_⟩
      intro y hy z hz heq
      rw [List.mem_singleton.1 hz] at heq
      exact hnotMem (heq ▸ hy)
    · rw [if_neg hq, List.append_nil]
      exact h.nodup_held q
  mem_held := by
    intro y q
    by_cases hyx : y = x
    · subst hyx
      have hnotMem : y ∉ h.held q := fun hmem => hx ((h.mem_held y q).1 hmem).1
      by_cases hq : q = none <;> simp [hnotMem, hq, eq_comm]
    · by_cases hq : q = none <;> simp [h.mem_held, hyx, hq]
  parent_mem := by
    intro y hy p hp
    by_cases hyx : y = x
    · rw [hyx, Function.update_self] at hp
      cases hp
    · rw [Function.update_of_ne hyx] at hp
      have hmem : y ∈ h.nodes := by simpa [hyx] using hy
      exact List.mem_append_left _ (h.parent_mem y hmem p hp)

/-- A node put behind the others at another place. -/
def move (h : Hierarchy α) (x : α) (q : Option α) (hx : x ∈ h.nodes)
    (hq : ∀ p, q = some p → p ∈ h.nodes) : Hierarchy α where
  nodes := h.nodes
  parent := Function.update h.parent x q
  held := fun q' => (h.held q').erase x ++ if q' = q then [x] else []
  nodup_nodes := h.nodup_nodes
  nodup_held := by
    intro q'
    by_cases heq : q' = q
    · rw [if_pos heq]
      refine List.nodup_append.2 ⟨(h.nodup_held q').erase x, List.nodup_singleton x, ?_⟩
      intro y hy z hz heq
      rw [List.mem_singleton.1 hz] at heq
      exact ((h.nodup_held q').mem_erase_iff.1 hy).1 heq
    · rw [if_neg heq, List.append_nil]
      exact (h.nodup_held q').erase x
  mem_held := by
    intro y q'
    rw [List.mem_append, (h.nodup_held q').mem_erase_iff]
    by_cases hyx : y = x
    · subst hyx
      by_cases heq : q' = q
      · simp [heq, hx]
      · simp [heq, Ne.symm heq]
    · by_cases heq : q' = q <;> simp [h.mem_held, hyx, heq]
  parent_mem := by
    intro y hy p hp
    by_cases hyx : y = x
    · rw [hyx, Function.update_self] at hp
      exact hq p hp
    · rw [Function.update_of_ne hyx] at hp
      exact h.parent_mem y hy p hp

/-- All nodes can be reached from the roots. -/
def Rooted (h : Hierarchy α) : Prop := ∀ x ∈ h.nodes, ∃ k, h.AtDepth k x

omit [DecidableEq α] in
theorem rooted_empty : (empty α).Rooted := by
  intro x hx
  cases hx

/-- A new root changes nothing for the others. -/
theorem Rooted.add (hrooted : h.Rooted) (hx : x ∉ h.nodes) : (h.add x hx).Rooted := by
  have hkept : ∀ k y, h.AtDepth k y → (h.add x hx).AtDepth k y := by
    intro k y hy
    induction hy with
    | root hroot => exact .root (List.mem_append_left _ hroot)
    | child _ hheld ih => exact ih.child (List.mem_append_left _ hheld)
  intro y hy
  rcases List.mem_append.1 hy with hy | hy
  · rcases hrooted y hy with ⟨k, hk⟩
    exact ⟨k, hkept k y hk⟩
  · rw [List.mem_singleton.1 hy]
    exact ⟨0, .root (List.mem_append_right _ (by simp))⟩

/-- What was held by a node and is not moved is held by it still. -/
theorem mem_held_move {q : Option α} (hx : x ∈ h.nodes) (hq : ∀ p, q = some p → p ∈ h.nodes)
    {q' : Option α} (hyx : y ≠ x) (hy : y ∈ h.held q') : y ∈ (h.move x q hx hq).held q' :=
  List.mem_append_left _ ((h.nodup_held q').mem_erase_iff.2 ⟨hyx, hy⟩)

/-- A move that is not under the node itself leaves all nodes within reach. -/
theorem Rooted.move (hrooted : h.Rooted) {q : Option α} (hx : x ∈ h.nodes)
    (hq : ∀ p, q = some p → p ∈ h.nodes) (hoff : ∀ p, q = some p → ¬ h.Under x p) :
    (h.move x q hx hq).Rooted := by
  -- what is not under `x` is reached as before
  have hothers : ∀ k y, h.AtDepth k y → ¬ h.Under x y → (h.move x q hx hq).AtDepth k y := by
    intro k y hy
    induction hy with
    | root hroot =>
        intro hnot
        have hne : _ ≠ x := fun heq => hnot (heq ▸ Relation.ReflTransGen.refl)
        exact .root (mem_held_move hx hq hne hroot)
    | child _ hheld ih =>
        intro hnot
        have hne : _ ≠ x := fun heq => hnot (heq ▸ Relation.ReflTransGen.refl)
        exact (ih fun hunder => hnot (hunder.tail hheld)).child (mem_held_move hx hq hne hheld)
  -- then `x` at its new place
  have hmoved : ∃ k, (h.move x q hx hq).AtDepth k x := by
    have hplace : x ∈ (h.move x q hx hq).held q := List.mem_append_right _ (by simp)
    cases q with
    | none => exact ⟨0, .root hplace⟩
    | some p =>
        rcases hrooted p (hq p rfl) with ⟨k, hk⟩
        exact ⟨k + 1, (hothers k p hk (hoff p rfl)).child hplace⟩
  -- and from there what is under it
  have hunder : ∀ y, h.Under x y → ∃ k, (h.move x q hx hq).AtDepth k y := by
    intro y hxy
    induction hxy with
    | refl => exact hmoved
    | @tail w y _ hheld ih =>
        by_cases hyx : y = x
        · rw [hyx]
          exact hmoved
        · rcases ih with ⟨k, hk⟩
          exact ⟨k + 1, hk.child (mem_held_move hx hq hyx hheld)⟩
  intro y hy
  by_cases hxy : h.Under x y
  · exact hunder y hxy
  · rcases hrooted y hy with ⟨k, hk⟩
    exact ⟨k, hothers k y hk hxy⟩

end Hierarchy
