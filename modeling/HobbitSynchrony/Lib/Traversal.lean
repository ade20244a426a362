import HobbitSynchrony.Lib.Hierarchy

/-! # Walks through a hierarchy

Recursive walks from the roots of a hierarchy: one that goes through everything,
and one that stops at the first node that is looked for. Both are given the depth
of recursion they may use.

* `walk`, `search`: the two walks from one node, `collect` and `searchEach`: from
  the nodes of a list;
* `searchEach_of_collect`: a search visits the first nodes of the walk;
* `Hierarchy.walkRoots_spec`: with as much fuel as there are nodes the walk from the
  roots ends, and visits the nodes that can be reached once.
-/

universe u v

namespace Traversal

variable {α : Type u} {β : Type v}

/-- A loop over a list, each turn of which gives a list. -/
def collect (f : α → Option (List β)) : List α → Option (List β)
  | [] => some []
  | x :: xs => do
    let first ← f x
    let rest ← collect f xs
    return first ++ rest

/-- The nodes under one, parents first, with their depths; `none` if `fuel` is less
than the depth of recursion. -/
def walk (children : α → List α) : ℕ → ℕ → α → Option (List (ℕ × α))
  | 0, _, _ => none
  | fuel + 1, depth, x => do
    let under ← collect (walk children fuel (depth + 1)) (children x)
    return (depth, x) :: under

/-- A loop over a list that ends at the first turn that finds something; as history
the nodes that were visited. -/
def searchEach (f : α → Option (List α × Option α)) : List α → Option (List α × Option α)
  | [] => some ([], none)
  | x :: xs => do
    let (visited, found) ← f x
    match found with
    | some y => return (visited, some y)
    | none =>
      let (visited', found) ← searchEach f xs
      return (visited ++ visited', found)

/-- The first node under one that is looked for. -/
def search (children : α → List α) (p : α → Bool) : ℕ → α → Option (List α × Option α)
  | 0, _ => none
  | fuel + 1, x =>
    if p x then some ([x], some x)
    else do
      let (visited, found) ← searchEach (search children p fuel) (children x)
      return (x :: visited, found)

/-! ## The loop -/

/-- The loop ends if every turn does. -/
theorem collect_eq {f : α → Option (List β)} {xs : List α}
    (h : ∀ x ∈ xs, ∃ l, f x = some l) :
    collect f xs = some (xs.flatMap fun x => (f x).getD []) := by
  induction xs with
  | nil => rfl
  | cons x xs ih =>
      rcases h x List.mem_cons_self with ⟨l, hl⟩
      rw [collect, hl, ih fun y hy => h y (List.mem_cons_of_mem x hy), List.flatMap_cons, hl]
      rfl

/-- And only then it ends. -/
theorem exists_of_collect {f : α → Option (List β)} {xs : List α} {l : List β}
    (h : collect f xs = some l) : ∀ x ∈ xs, ∃ l', f x = some l' := by
  induction xs generalizing l with
  | nil =>
      intro x hx
      cases hx
  | cons x xs ih =>
      rw [collect] at h
      simp only [Option.bind_eq_bind, Option.bind_eq_some_iff] at h
      rcases h with ⟨first, hfirst, rest, hrest, -⟩
      intro y hy
      rcases List.mem_cons.1 hy with rfl | hy
      · exact ⟨first, hfirst⟩
      · exact ih hrest y hy

theorem collect_congr {f g : α → Option (List β)} {xs : List α} (h : ∀ x ∈ xs, f x = g x) :
    collect f xs = collect g xs := by
  induction xs with
  | nil => rfl
  | cons x xs ih =>
      rw [collect, collect, h x List.mem_cons_self, ih fun y hy => h y (List.mem_cons_of_mem x hy)]

/-- More fuel changes nothing once the walk has ended. -/
theorem walk_mono {children : α → List α} {fuel fuel' depth : ℕ} {x : α} {l : List (ℕ × α)}
    (hle : fuel ≤ fuel') (h : walk children fuel depth x = some l) :
    walk children fuel' depth x = some l := by
  induction fuel generalizing fuel' depth x l with
  | zero =>
      rw [walk] at h
      cases h
  | succ fuel ih =>
      obtain ⟨fuel', rfl⟩ : ∃ k, fuel' = k + 1 := ⟨fuel' - 1, by omega⟩
      rw [walk] at h
      simp only [Option.bind_eq_bind, Option.bind_eq_some_iff] at h
      rcases h with ⟨under, hunder, hl⟩
      have hsame : ∀ y ∈ children x,
          walk children fuel' (depth + 1) y = walk children fuel (depth + 1) y := by
        intro y hy
        rcases exists_of_collect hunder y hy with ⟨l', hl'⟩
        rw [hl', ih (by omega) hl']
      rw [walk, collect_congr hsame, hunder]
      exact hl

/-! ## Searches -/

variable {p : α → Bool}

/-- The nodes of a list up to the first that is looked for. -/
def upTo (p : α → Bool) (l : List α) : List α :=
  l.takeWhile (fun x => !p x) ++ (l.find? p).toList

theorem upTo_isPrefix (p : α → Bool) (l : List α) : upTo p l <+: l := by
  unfold upTo
  induction l with
  | nil => simp
  | cons x l ih =>
      cases hx : p x with
      | true => simp [hx]
      | false => simpa [hx] using ih

theorem upTo_append_of_found {l : List α} {y : α} (h : l.find? p = some y) (l' : List α) :
    upTo p (l ++ l') = upTo p l := by
  unfold upTo
  induction l with
  | nil => cases h
  | cons x l ih =>
      cases hx : p x with
      | true => simp [hx]
      | false =>
          rw [List.find?_cons_of_neg (by simp [hx])] at h
          simpa [hx] using ih h

theorem upTo_append_of_none {l : List α} (h : l.find? p = none) (l' : List α) :
    upTo p (l ++ l') = l ++ upTo p l' := by
  unfold upTo
  induction l with
  | nil => rfl
  | cons x l ih =>
      have hx : p x = false := by simpa using List.find?_eq_none.1 h x List.mem_cons_self
      rw [List.find?_cons_of_neg (by simp [hx])] at h
      simpa [hx] using ih h

theorem upTo_of_none {l : List α} (h : l.find? p = none) : upTo p l = l := by
  have happend := upTo_append_of_none h []
  simpa [upTo] using happend

/-- A search in a list visits the first nodes of the walk, if the searches from its
nodes do. -/
theorem searchEach_of_collect {f : α → Option (List (ℕ × α))}
    {g : α → Option (List α × Option α)} {xs : List α} {l : List (ℕ × α)}
    (hfg : ∀ x ∈ xs, ∀ l, f x = some l →
      g x = some (upTo p (l.map Prod.snd), (l.map Prod.snd).find? p))
    (h : collect f xs = some l) :
    searchEach g xs = some (upTo p (l.map Prod.snd), (l.map Prod.snd).find? p) := by
  induction xs generalizing l with
  | nil =>
      cases h
      rfl
  | cons x xs ih =>
      rw [collect] at h
      simp only [Option.bind_eq_bind, Option.bind_eq_some_iff] at h
      rcases h with ⟨first, hfirst, rest, hrest, hl⟩
      cases hl
      have hrestSearch := ih (fun y hy => hfg y (List.mem_cons_of_mem x hy)) hrest
      rw [searchEach, hfg x List.mem_cons_self first hfirst, List.map_append]
      cases hfound : (first.map Prod.snd).find? p with
      | some y =>
          rw [upTo_append_of_found hfound, List.find?_append, hfound]
          rfl
      | none =>
          rw [upTo_append_of_none hfound, List.find?_append, hfound, upTo_of_none hfound]
          simp [hrestSearch]

/-- So does the search from one node. -/
theorem search_of_walk {children : α → List α} {fuel depth : ℕ} {x : α} {l : List (ℕ × α)}
    (h : walk children fuel depth x = some l) :
    search children p fuel x = some (upTo p (l.map Prod.snd), (l.map Prod.snd).find? p) := by
  induction fuel generalizing depth x l with
  | zero =>
      rw [walk] at h
      cases h
  | succ fuel ih =>
      rw [walk] at h
      simp only [Option.bind_eq_bind, Option.bind_eq_some_iff] at h
      rcases h with ⟨under, hunder, hl⟩
      cases hl
      have hsearch := searchEach_of_collect (fun y _ l hl => ih hl) hunder
      rw [search]
      cases hx : p x with
      | true => simp [upTo, hx]
      | false => simp [hsearch, upTo, hx]

end Traversal

/-! ## Walks from the roots -/

namespace Hierarchy

open Traversal

variable {α : Type u} {h : Hierarchy α}

variable (h) in
/-- The nodes that a node holds. -/
def children (x : α) : List α := h.held (some x)

variable (h) in
/-- A walk visits the nodes with a property, once each and with their depths. -/
structure Visits (l : List (ℕ × α)) (P : α → Prop) : Prop where
  depth : ∀ d y, (d, y) ∈ l → h.AtDepth d y
  mem : ∀ y, y ∈ l.map Prod.snd ↔ P y
  nodup : (l.map Prod.snd).Nodup

/-- Walks from different nodes of one depth visit different nodes. -/
theorem visits_collect {f : α → Option (List (ℕ × α))} {xs : List α} {k : ℕ} (hnodup : xs.Nodup)
    (hdepth : ∀ x ∈ xs, h.AtDepth k x)
    (hwalk : ∀ x ∈ xs, ∃ l, f x = some l ∧ h.Visits l (h.Under x)) :
    ∃ l, collect f xs = some l ∧ h.Visits l fun y => ∃ x ∈ xs, h.Under x y := by
  have hends : ∀ x ∈ xs, ∃ l, f x = some l := by
    intro x hx
    rcases hwalk x hx with ⟨l, hl, -⟩
    exact ⟨l, hl⟩
  have hvisits : ∀ x ∈ xs, h.Visits ((f x).getD []) (h.Under x) := by
    intro x hx
    rcases hwalk x hx with ⟨l, hl, hvisits⟩
    rw [hl]
    exact hvisits
  refine ⟨_, collect_eq hends, ?_, ?_, ?_⟩
  · intro d y hy
    rcases List.mem_flatMap.1 hy with ⟨x, hx, hy⟩
    exact (hvisits x hx).depth d y hy
  · intro y
    rw [List.map_flatMap, List.mem_flatMap]
    constructor
    · rintro ⟨x, hx, hy⟩
      exact ⟨x, hx, ((hvisits x hx).mem y).1 hy⟩
    · rintro ⟨x, hx, hy⟩
      exact ⟨x, hx, ((hvisits x hx).mem y).2 hy⟩
  · rw [List.map_flatMap, List.nodup_flatMap]
    refine ⟨fun x hx => (hvisits x hx).nodup, hnodup.imp_of_mem ?_⟩
    intro x x' hx hx' hne y hy hy'
    exact hne (under_unique (hdepth x hx) (hdepth x' hx') (((hvisits x hx).mem y).1 hy)
      (((hvisits x' hx').mem y).1 hy'))

/-- With enough fuel the walk from a node that can be reached ends, and visits what is
under the node. -/
theorem AtDepth.walk_spec {k fuel : ℕ} {x : α} (hx : h.AtDepth k x)
    (hfuel : h.nodes.length ≤ k + fuel) :
    ∃ l, walk h.children fuel k x = some l ∧ h.Visits l (h.Under x) := by
  induction fuel generalizing k x with
  | zero =>
      have hlt := hx.lt_length
      omega
  | succ fuel ih =>
      have hchild : ∀ y ∈ h.children x, h.AtDepth (k + 1) y := fun y hy => hx.child hy
      rcases visits_collect (h.nodup_held (some x)) hchild fun y hy => ih (hchild y hy) (by omega)
        with ⟨l, hl, hvisits⟩
      have hl' : collect (walk h.children fuel (k + 1)) (h.children x) = some l := hl
      refine ⟨(k, x) :: l, by rw [walk, hl']; rfl, ?_, ?_, ?_⟩
      · intro d y hy
        rcases List.mem_cons.1 hy with heq | hy
        · cases heq
          exact hx
        · exact hvisits.depth d y hy
      · intro y
        rw [List.map_cons, List.mem_cons, hvisits.mem y]
        constructor
        · rintro (rfl | ⟨z, hz, hy⟩)
          · exact Relation.ReflTransGen.refl
          · exact Relation.ReflTransGen.head hz hy
        · intro hy
          rcases Relation.ReflTransGen.cases_head hy with rfl | ⟨z, hz, hy⟩
          · exact Or.inl rfl
          · exact Or.inr ⟨z, hz, hy⟩
      · rw [List.map_cons, List.nodup_cons, hvisits.mem x]
        refine ⟨?_, hvisits.nodup⟩
        rintro ⟨y, hy, hyx⟩
        exact hx.not_cycle (Relation.TransGen.head' hy hyx)

/-- A node can be reached exactly if it is under a root. -/
theorem under_root_iff {y : α} :
    (∃ x ∈ h.held none, h.Under x y) ↔ ∃ k, h.AtDepth k y := by
  constructor
  · rintro ⟨x, hx, hxy⟩
    rcases (AtDepth.root hx).under hxy with ⟨k, -, hy⟩
    exact ⟨k, hy⟩
  · rintro ⟨k, hy⟩
    induction hy with
    | @root x hroot => exact ⟨x, hroot, Relation.ReflTransGen.refl⟩
    | child _ hheld ih =>
        rcases ih with ⟨x, hx, hxy⟩
        exact ⟨x, hx, hxy.tail hheld⟩

variable (h) in
/-- The walk from the roots. -/
def walkRoots (fuel : ℕ) : Option (List (ℕ × α)) :=
  collect (walk h.children fuel 0) (h.held none)

variable (h) in
/-- The walk from the roots ends, with any fuel from the number of nodes on, and
visits the nodes that can be reached. -/
theorem walkRoots_spec :
    ∃ l, (∀ fuel, h.nodes.length ≤ fuel → h.walkRoots fuel = some l) ∧
      h.Visits l fun y => ∃ k, h.AtDepth k y := by
  have hroot : ∀ x ∈ h.held none, h.AtDepth 0 x := fun x hx => .root hx
  have hwalks : ∀ x ∈ h.held none, ∃ l, walk h.children h.nodes.length 0 x = some l ∧
      h.Visits l (h.Under x) := fun x hx => (hroot x hx).walk_spec (by omega)
  rcases visits_collect (h.nodup_held none) hroot hwalks with ⟨l, hl, hvisits⟩
  refine ⟨l, fun fuel hfuel => ?_, hvisits.depth, fun y => ?_, hvisits.nodup⟩
  · have hsame : ∀ x ∈ h.held none,
        walk h.children fuel 0 x = walk h.children h.nodes.length 0 x := by
      intro x hx
      rcases hwalks x hx with ⟨l', hl', -⟩
      rw [hl', walk_mono hfuel hl']
    unfold walkRoots
    rw [collect_congr hsame, hl]
  · rw [hvisits.mem y]
    exact under_root_iff

end Hierarchy
