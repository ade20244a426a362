import HobbitSynchrony.Lib.Run
import HobbitSynchrony.Lib.Traversal

/-! # The hierarchy of log options

`LogSystem/LogManager.h` and `LogManager.cpp`: options that hold other options.
Options are moved by separate changes of parent links and lists of children, and
an option can be moved under itself. Options are numbered in the order in which
they are created.

* `LogManager`: the options, their links, and the roots;
* `moveLogOption`, `moveByName`, `findLogOptionByName`, `displayHierarchy`: the
  functions;
* `Places`: the links are those of a hierarchy;
* `log_traversals_end`: after any calls the recursions from the roots end;
* `log_hierarchy_forest`: nothing is lost unless an option is moved under itself.
-/

namespace HobbitSynchrony

open Transition Traversal

/-- `LogOption`: what the hierarchy is made of. (An option is alive as long as it is
held, so its weak link to the parent can be followed.) -/
structure LogOption where
  name : String
  active : Bool
  parent : Option ℕ
  children : List ℕ
deriving DecidableEq, Repr

/-- `LogManager`, with the options that have been created. -/
structure LogManager where
  created : ℕ
  option : ℕ → LogOption
  rootLogs : List ℕ

namespace LogManager

def new : LogManager where
  created := 0
  option := fun _ => { name := "", active := true, parent := none, children := [] }
  rootLogs := []

/-- `GetParent`. -/
def parentOf (m : LogManager) (x : ℕ) : Option ℕ := (m.option x).parent

/-- `GetChildren`. -/
def childrenOf (m : LogManager) (x : ℕ) : List ℕ := (m.option x).children

/-! ## Links -/

def setParent (m : LogManager) (x : ℕ) (q : Option ℕ) : LogManager :=
  { m with option := Function.update m.option x { m.option x with parent := q } }

def setChildren (m : LogManager) (x : ℕ) (children : List ℕ) : LogManager :=
  { m with option := Function.update m.option x { m.option x with children := children } }

/-- `SetStatus`. -/
def setStatus (m : LogManager) (x : ℕ) (active : Bool) : LogManager :=
  { m with option := Function.update m.option x { m.option x with active := active } }

@[simp] theorem parentOf_setParent (m : LogManager) (x : ℕ) (q : Option ℕ) :
    (m.setParent x q).parentOf = Function.update m.parentOf x q := by
  funext y
  by_cases hy : y = x <;> simp [parentOf, setParent, hy]

@[simp] theorem childrenOf_setParent (m : LogManager) (x : ℕ) (q : Option ℕ) :
    (m.setParent x q).childrenOf = m.childrenOf := by
  funext y
  by_cases hy : y = x <;> simp [childrenOf, setParent, hy]

@[simp] theorem parentOf_setChildren (m : LogManager) (x : ℕ) (children : List ℕ) :
    (m.setChildren x children).parentOf = m.parentOf := by
  funext y
  by_cases hy : y = x <;> simp [parentOf, setChildren, hy]

@[simp] theorem childrenOf_setChildren (m : LogManager) (x : ℕ) (children : List ℕ) :
    (m.setChildren x children).childrenOf = Function.update m.childrenOf x children := by
  funext y
  by_cases hy : y = x <;> simp [childrenOf, setChildren, hy]

@[simp] theorem parentOf_setStatus (m : LogManager) (x : ℕ) (active : Bool) :
    (m.setStatus x active).parentOf = m.parentOf := by
  funext y
  by_cases hy : y = x <;> simp [parentOf, setStatus, hy]

@[simp] theorem childrenOf_setStatus (m : LogManager) (x : ℕ) (active : Bool) :
    (m.setStatus x active).childrenOf = m.childrenOf := by
  funext y
  by_cases hy : y = x <;> simp [childrenOf, setStatus, hy]

/-! ## The functions -/

/-- `LogOption::AddChild`. -/
def addChild (m : LogManager) (option child : ℕ) : LogManager :=
  let m := m.setParent child (some option)
  m.setChildren option (m.childrenOf option ++ [child])

/-- `LogOption::RemoveChild`. -/
def removeChild (m : LogManager) (option child : ℕ) : LogManager :=
  if child ∈ m.childrenOf option then
    let m := m.setParent child none
    m.setChildren option ((m.childrenOf option).erase child)
  else m

/-- `CreateLogOption`. -/
def createLogOption (m : LogManager) (name : String) : LogManager where
  created := m.created + 1
  option := Function.update m.option m.created
    { name := name, active := true, parent := none, children := [] }
  rootLogs := m.rootLogs ++ [m.created]

/-- The first half of `MoveLogOption`: the option is taken from its place. -/
def takeOut (m : LogManager) (logOption : ℕ) : LogManager :=
  match m.parentOf logOption with
  | some parent => m.removeChild parent logOption
  | none => { m with rootLogs := m.rootLogs.erase logOption }

/-- The second half: it is put to its new place. -/
def putUnder (m : LogManager) (logOption : ℕ) (newParent : Option ℕ) : LogManager :=
  match newParent with
  | some newParent => m.addChild newParent logOption
  | none => ({ m with rootLogs := m.rootLogs ++ [logOption] } : LogManager).setStatus logOption true

/-- `MoveLogOption` of pointers. -/
def moveLogOption (m : LogManager) (logOption : ℕ) (newParent : Option ℕ) : LogManager :=
  (m.takeOut logOption).putUnder logOption newParent

/-- `FindLogOptionByName`; `none` if the recursion is deeper than `fuel`. As history
the options that are visited. -/
def findLogOptionByName (m : LogManager) (fuel : ℕ) (logOptions : List ℕ) (name : String) :
    Option (List ℕ × Option ℕ) :=
  searchEach (search m.childrenOf (fun x => (m.option x).name = name) fuel) logOptions

/-- `MoveLogOption` of names. -/
def moveByName (m : LogManager) (fuel : ℕ) (logOptionName newParentName : String) :
    Option LogManager := do
  let (_, logOption) ← m.findLogOptionByName fuel m.rootLogs logOptionName
  let (_, newParent) ← m.findLogOptionByName fuel m.rootLogs newParentName
  match logOption with
  | none => return m
  | some logOption => return m.moveLogOption logOption newParent

/-- `DisplayLogOption`: the options it gets to, with their indentations. -/
def displayLogOption (m : LogManager) (fuel indent : ℕ) (logOption : ℕ) : Option (List (ℕ × ℕ)) :=
  walk m.childrenOf fuel indent logOption

/-- `DisplayHierarchy`. -/
def displayHierarchy (m : LogManager) (fuel : ℕ) : Option (List (ℕ × ℕ)) :=
  collect (m.displayLogOption fuel 0) m.rootLogs

/-! ## Calls -/

/-- The calls that change the hierarchy. Pointers are to options that have been
created. -/
inductive Call where
  | createLogOption (name : String)
  | movePtr (logOption : ℕ) (newParent : Option ℕ)
  | moveName (logOptionName newParentName : String)
deriving DecidableEq, Repr

/-- One call. A search by name is given as many levels of recursion as there are
options. -/
def step (m : LogManager) : Call → Option LogManager
  | .createLogOption name => some (m.createLogOption name)
  | .movePtr logOption newParent =>
    if logOption < m.created && newParent.all (· < m.created) then
      some (m.moveLogOption logOption newParent)
    else none
  | .moveName logOptionName newParentName => m.moveByName m.created logOptionName newParentName

/-- The option that a call moves, and its new parent. -/
def moves (m : LogManager) : Call → Option (ℕ × Option ℕ)
  | .createLogOption _ => none
  | .movePtr logOption newParent => some (logOption, newParent)
  | .moveName logOptionName newParentName => do
    let (_, logOption) ← m.findLogOptionByName m.created m.rootLogs logOptionName
    let (_, newParent) ← m.findLogOptionByName m.created m.rootLogs newParentName
    let logOption ← logOption
    return (logOption, newParent)

/-! ## What is held -/

/-- `x` holds `y`. -/
def Holds (m : LogManager) (x y : ℕ) : Prop := y ∈ m.childrenOf x

/-- `x` is a root, or held by something that can be reached. -/
def Reachable (m : LogManager) (x : ℕ) : Prop :=
  ∃ r ∈ m.rootLogs, Relation.ReflTransGen m.Holds r x

/-- No option is moved under itself or one of its descendants. -/
def NotUnder (m : LogManager) (call : Call) : Prop :=
  ∀ x p, m.moves call = some (x, some p) → ¬ Relation.ReflTransGen m.Holds x p

/-- The links and the lists of a manager are those of a hierarchy. -/
structure Places (m : LogManager) (h : Hierarchy ℕ) : Prop where
  nodes : h.nodes = List.range m.created
  parent : h.parent = m.parentOf
  roots : h.held none = m.rootLogs
  children : ∀ p, h.held (some p) = m.childrenOf p

theorem places_new : Places new (Hierarchy.empty ℕ) := ⟨rfl, rfl, rfl, fun _ => rfl⟩

variable {m m' : LogManager} {h : Hierarchy ℕ} {x p : ℕ}

theorem Places.mem_nodes (hp : Places m h) : x ∈ h.nodes ↔ x < m.created := by
  rw [hp.nodes, List.mem_range]

theorem Places.mem_childrenOf (hp : Places m h) :
    x ∈ m.childrenOf p ↔ x < m.created ∧ m.parentOf x = some p := by
  rw [← hp.children, h.mem_held, hp.mem_nodes, hp.parent]

theorem Places.mem_rootLogs (hp : Places m h) :
    x ∈ m.rootLogs ↔ x < m.created ∧ m.parentOf x = none := by
  rw [← hp.roots, h.mem_held, hp.mem_nodes, hp.parent]

theorem Places.parent_lt (hp : Places m h) (hx : x < m.created) (hparent : m.parentOf x = some p) :
    p < m.created := by
  rw [← hp.mem_nodes] at hx ⊢
  rw [← hp.parent] at hparent
  exact h.parent_mem x hx p hparent

theorem Places.holds (hp : Places m h) : h.Holds = m.Holds := by
  funext x y
  rw [Hierarchy.Holds, Holds, hp.children]

theorem Places.reachable_iff (hp : Places m h) : m.Reachable x ↔ ∃ k, h.AtDepth k x := by
  rw [← Hierarchy.under_root_iff, hp.roots]
  unfold Reachable Hierarchy.Under
  rw [hp.holds]

/-! ## What a call does -/

/-- A new option is a new root. -/
theorem Places.createLogOption (hp : Places m h) (name : String) (hx : m.created ∉ h.nodes) :
    Places (m.createLogOption name) (h.add m.created hx) where
  nodes := by
    change h.nodes ++ [m.created] = List.range (m.created + 1)
    rw [hp.nodes, List.range_succ]
  parent := by
    funext y
    change Function.update h.parent m.created none y = (m.createLogOption name).parentOf y
    rw [hp.parent]
    by_cases hy : y = m.created <;> simp [parentOf, LogManager.createLogOption, hy]
  roots := by
    change h.held none ++ [m.created] = m.rootLogs ++ [m.created]
    rw [hp.roots]
  children := by
    intro p
    change h.held (some p) ++ [] = (m.createLogOption name).childrenOf p
    rw [List.append_nil, hp.children]
    by_cases hy : p = m.created
    · -- nothing has been put under an option that was not there
      have hnone : m.childrenOf m.created = [] := by
        refine List.eq_nil_iff_forall_not_mem.2 fun x hx => ?_
        rcases hp.mem_childrenOf.1 hx with ⟨hlt, hparent⟩
        exact Nat.lt_irrefl _ (hp.parent_lt hlt hparent)
      rw [hy, hnone]
      simp [childrenOf, LogManager.createLogOption]
    · simp [childrenOf, LogManager.createLogOption, hy]

theorem created_takeOut (m : LogManager) (x : ℕ) : (m.takeOut x).created = m.created := by
  unfold takeOut removeChild
  split
  · split <;> rfl
  · rfl

/-- What is taken out has no parent. -/
theorem Places.parentOf_takeOut (hp : Places m h) (hx : x < m.created) :
    (m.takeOut x).parentOf = Function.update m.parentOf x none := by
  unfold LogManager.takeOut
  cases hparent : m.parentOf x with
  | none =>
      have hsame : Function.update m.parentOf x none = m.parentOf := by
        rw [← hparent, Function.update_eq_self]
      rw [hsame]
      rfl
  | some p =>
      dsimp only
      rw [removeChild, if_pos (hp.mem_childrenOf.2 ⟨hx, hparent⟩), parentOf_setChildren,
        parentOf_setParent]

/-- It is not among the roots any more. -/
theorem Places.rootLogs_takeOut (hp : Places m h) :
    (m.takeOut x).rootLogs = m.rootLogs.erase x := by
  unfold LogManager.takeOut
  cases hparent : m.parentOf x with
  | none => rfl
  | some p =>
      have hnotRoot : x ∉ m.rootLogs := by
        rw [hp.mem_rootLogs, hparent]
        simp
      dsimp only
      rw [List.erase_of_not_mem hnotRoot, removeChild]
      split <;> rfl

/-- And among no children. -/
theorem Places.childrenOf_takeOut (hp : Places m h) (hx : x < m.created) (p : ℕ) :
    (m.takeOut x).childrenOf p = (m.childrenOf p).erase x := by
  unfold LogManager.takeOut
  cases hparent : m.parentOf x with
  | none =>
      have hnotHeld : x ∉ m.childrenOf p := by
        rw [hp.mem_childrenOf, hparent]
        simp
      rw [List.erase_of_not_mem hnotHeld]
      rfl
  | some parent =>
      dsimp only
      rw [removeChild, if_pos (hp.mem_childrenOf.2 ⟨hx, hparent⟩), childrenOf_setChildren,
        childrenOf_setParent]
      by_cases heq : p = parent
      · rw [heq, Function.update_self]
      · have hnotHeld : x ∉ m.childrenOf p := by
          rw [hp.mem_childrenOf, hparent]
          rintro ⟨-, hsome⟩
          exact heq (Option.some.inj hsome).symm
        rw [Function.update_of_ne heq, List.erase_of_not_mem hnotHeld]

theorem created_putUnder (m : LogManager) (x : ℕ) (q : Option ℕ) :
    (m.putUnder x q).created = m.created := by
  cases q <;> rfl

theorem parentOf_putUnder (x : ℕ) (q : Option ℕ) (hnone : m.parentOf x = none) :
    (m.putUnder x q).parentOf = Function.update m.parentOf x q := by
  cases q with
  | none =>
      rw [putUnder, parentOf_setStatus, ← hnone, Function.update_eq_self]
      rfl
  | some p => rw [putUnder, addChild, parentOf_setChildren, parentOf_setParent]

theorem rootLogs_putUnder (m : LogManager) (x : ℕ) (q : Option ℕ) :
    (m.putUnder x q).rootLogs = m.rootLogs ++ if none = q then [x] else [] := by
  cases q with
  | none => rfl
  | some p => simp [putUnder, addChild, setParent, setChildren]

theorem childrenOf_putUnder (m : LogManager) (x : ℕ) (q : Option ℕ) (p : ℕ) :
    (m.putUnder x q).childrenOf p = m.childrenOf p ++ if some p = q then [x] else [] := by
  cases q with
  | none =>
      rw [putUnder, childrenOf_setStatus, if_neg (by simp), List.append_nil]
      rfl
  | some parent =>
      rw [putUnder, addChild, childrenOf_setChildren, childrenOf_setParent]
      by_cases heq : p = parent
      · rw [heq, Function.update_self, if_pos rfl]
      · rw [Function.update_of_ne heq, if_neg (by simpa using heq), List.append_nil]

/-- The two halves together are the move of a node. -/
theorem Places.moveLogOption (hp : Places m h) {q : Option ℕ} (hx : x ∈ h.nodes)
    (hq : ∀ p, q = some p → p ∈ h.nodes) :
    Places (m.moveLogOption x q) (h.move x q hx hq) := by
  have hlt : x < m.created := hp.mem_nodes.1 hx
  have hnone : (m.takeOut x).parentOf x = none := by
    rw [hp.parentOf_takeOut hlt, Function.update_self]
  refine ⟨?_, ?_, ?_, fun p => ?_⟩
  · rw [LogManager.moveLogOption, created_putUnder, created_takeOut]
    exact hp.nodes
  · rw [LogManager.moveLogOption, parentOf_putUnder x q hnone, hp.parentOf_takeOut hlt,
      Function.update_idem, ← hp.parent]
    rfl
  · rw [LogManager.moveLogOption, rootLogs_putUnder, hp.rootLogs_takeOut, ← hp.roots]
    rfl
  · rw [LogManager.moveLogOption, childrenOf_putUnder, hp.childrenOf_takeOut hlt, ← hp.children]
    rfl

/-! ## Walks and searches -/

/-- The display from the roots ends with as much recursion as there are options, and
gets to what can be reached; a search gets to the first options of it. -/
theorem Places.traversals (hp : Places m h) :
    ∃ l, h.Visits l (fun y => ∃ k, h.AtDepth k y) ∧
      ∀ fuel, m.created ≤ fuel → m.displayHierarchy fuel = some l ∧
        ∀ name, m.findLogOptionByName fuel m.rootLogs name =
          some (upTo (fun x => (m.option x).name = name) (l.map Prod.snd),
            (l.map Prod.snd).find? fun x => (m.option x).name = name) := by
  rcases h.walkRoots_spec with ⟨l, hends, hvisits⟩
  refine ⟨l, hvisits, fun fuel hfuel => ?_⟩
  have hchildren : h.children = m.childrenOf := funext hp.children
  have hlength : h.nodes.length ≤ fuel := by
    rw [hp.nodes, List.length_range]
    exact hfuel
  have hdisplay : m.displayHierarchy fuel = some l := by
    rw [← hends fuel hlength, Hierarchy.walkRoots, hchildren, hp.roots]
    rfl
  refine ⟨hdisplay, fun name => ?_⟩
  exact searchEach_of_collect (fun x _ l hl => search_of_walk hl) hdisplay

/-- A search by name does not run out of recursion, and what it finds is an option
that can be reached and has the name. -/
theorem Places.exists_find (hp : Places m h) (name : String) :
    ∃ visited found,
      m.findLogOptionByName m.created m.rootLogs name = some (visited, found) ∧
        ∀ x, found = some x → m.Reachable x ∧ (m.option x).name = name := by
  rcases hp.traversals with ⟨l, hvisits, hends⟩
  refine ⟨_, _, (hends m.created (Nat.le_refl _)).2 name, fun x hfound => ⟨?_, ?_⟩⟩
  · rw [hp.reachable_iff]
    exact (hvisits.mem x).1 (List.mem_of_find?_eq_some hfound)
  · simpa using List.find?_some hfound

theorem Places.lt_of_reachable (hp : Places m h) (hx : m.Reachable x) : x < m.created := by
  rcases hp.reachable_iff.1 hx with ⟨k, hk⟩
  exact hp.mem_nodes.1 hk.mem

/-- A move by name changes nothing, or it is a move of options that can be reached. -/
theorem Places.moveByName_cases (hp : Places m h) (logOptionName newParentName : String) :
    m.moveByName m.created logOptionName newParentName = some m ∨
      ∃ x q, m.moves (.moveName logOptionName newParentName) = some (x, q) ∧
        m.moveByName m.created logOptionName newParentName = some (m.moveLogOption x q) ∧
        (m.Reachable x ∧ (m.option x).name = logOptionName) ∧ ∀ p, q = some p → m.Reachable p := by
  rcases hp.exists_find logOptionName with ⟨visited, found, hfind, hfound⟩
  rcases hp.exists_find newParentName with ⟨visited', found', hfind', hfound'⟩
  cases found with
  | none => exact Or.inl (by simp [moveByName, hfind, hfind'])
  | some x =>
      refine Or.inr ⟨x, found', ?_, ?_, hfound x rfl, fun p hsome => (hfound' p hsome).1⟩
      · simp [moves, hfind, hfind']
      · simp [moveByName, hfind, hfind']

/-! ## Runs -/

/-- Every move leaves a hierarchy, and all options within reach unless one is moved
under itself. -/
theorem Places.exists_move (hp : Places m h) {call : Call} {q : Option ℕ}
    (hmoves : m.moves call = some (x, q)) (hx : x < m.created)
    (hq : ∀ p, q = some p → p < m.created) :
    ∃ h', Places (m.moveLogOption x q) h' ∧ (m.NotUnder call → h.Rooted → h'.Rooted) := by
  have hx' : x ∈ h.nodes := hp.mem_nodes.2 hx
  have hq' : ∀ p, q = some p → p ∈ h.nodes := fun p hsome => hp.mem_nodes.2 (hq p hsome)
  refine ⟨h.move x q hx' hq', hp.moveLogOption hx' hq', fun hnotUnder hrooted => ?_⟩
  refine hrooted.move hx' hq' fun p hsome => ?_
  unfold Hierarchy.Under
  rw [hp.holds]
  exact hnotUnder x p (hsome ▸ hmoves)

/-- So does every call. -/
theorem Places.step (hp : Places m h) {call : Call} (hs : m.step call = some m') :
    ∃ h', Places m' h' ∧ (m.NotUnder call → h.Rooted → h'.Rooted) := by
  cases call with
  | createLogOption name =>
      cases hs
      have hx : m.created ∉ h.nodes := by simp [hp.mem_nodes]
      exact ⟨_, hp.createLogOption name hx, fun _ hrooted => hrooted.add hx⟩
  | movePtr x q =>
      rw [LogManager.step] at hs
      split at hs
      · rename_i hcreated
        cases hs
        simp only [Bool.and_eq_true, decide_eq_true_eq, Option.all_eq_true] at hcreated
        exact hp.exists_move rfl hcreated.1 hcreated.2
      · cases hs
  | moveName logOptionName newParentName =>
      rw [LogManager.step] at hs
      rcases hp.moveByName_cases logOptionName newParentName with
        hsame | ⟨x, q, hmoves, hmoved, ⟨hx, -⟩, hq⟩
      · rw [hsame] at hs
        cases hs
        exact ⟨h, hp, fun _ hrooted => hrooted⟩
      · rw [hmoved] at hs
        cases hs
        exact hp.exists_move hmoves (hp.lt_of_reachable hx)
          fun p hsome => hp.lt_of_reachable (hq p hsome)

/-- The links are those of some hierarchy. -/
def Placed (m : LogManager) : Prop := ∃ h, Places m h

/-- All options of it can be reached. -/
def Forest (m : LogManager) : Prop := ∃ h, Places m h ∧ h.Rooted

theorem placed_step {call : Call} (hs : m.step call = some m') (hplaced : m.Placed) :
    m'.Placed := by
  rcases hplaced with ⟨h, hp⟩
  rcases hp.step hs with ⟨h', hp', -⟩
  exact ⟨h', hp'⟩

theorem forest_step {call : Call} (hs : m.step call = some m') (hnotUnder : m.NotUnder call)
    (hforest : m.Forest) : m'.Forest := by
  rcases hforest with ⟨h, hp, hrooted⟩
  rcases hp.step hs with ⟨h', hp', hkept⟩
  exact ⟨h', hp', hkept hnotUnder hrooted⟩

theorem placed_of_run {calls : List Call} (hrun : Run (ofFn LogManager.step) new calls m) :
    m.Placed :=
  hrun.invariant (fun _ _ _ hs h => placed_step hs h) ⟨_, places_new⟩

theorem forest_of_run {calls : List Call}
    (hrun : Run (Guarded (ofFn LogManager.step) NotUnder) new calls m) : m.Forest :=
  hrun.invariant (fun _ _ _ hs h => forest_step hs.1 hs.2 h)
    ⟨_, places_new, Hierarchy.rooted_empty⟩

/-- After any calls each option is held once, by an option or among the roots; what
can be reached is on no cycle; display and search from the roots end, and visit no
option twice. A move by name always ends. -/
theorem log_traversals_end {calls : List Call} (hrun : Run (ofFn LogManager.step) new calls m) :
    (m.rootLogs ++ (List.range m.created).flatMap m.childrenOf).Perm (List.range m.created) ∧
      (∀ x, m.Reachable x → ¬ Relation.TransGen m.Holds x x) ∧
      (∃ visited, (∀ fuel, m.created ≤ fuel → m.displayHierarchy fuel = some visited) ∧
        (visited.map Prod.snd).Nodup) ∧
      (∀ name, ∃ visited found,
        (∀ fuel, m.created ≤ fuel →
          m.findLogOptionByName fuel m.rootLogs name = some (visited, found)) ∧
        visited.Nodup) ∧
      ∀ logOptionName newParentName, ∃ m',
        m.step (.moveName logOptionName newParentName) = some m' := by
  rcases placed_of_run hrun with ⟨h, hp⟩
  rcases hp.traversals with ⟨l, hvisits, hends⟩
  refine ⟨?_, fun x hx => ?_, ⟨l, fun fuel hfuel => (hends fuel hfuel).1, hvisits.nodup⟩,
    fun name => ?_, fun logOptionName newParentName => ?_⟩
  · have hplaces := h.perm_places
    rw [hp.nodes, hp.roots, funext hp.children] at hplaces
    exact hplaces
  · rcases hp.reachable_iff.1 hx with ⟨k, hk⟩
    rw [← hp.holds]
    exact hk.not_cycle
  · exact ⟨_, _, fun fuel hfuel => (hends fuel hfuel).2 name,
      hvisits.nodup.sublist (upTo_isPrefix _ _).sublist⟩
  · rcases hp.moveByName_cases logOptionName newParentName with hsame | ⟨x, q, -, hmoved, -⟩
    · exact ⟨m, hsame⟩
    · exact ⟨_, hmoved⟩

/-- Two options under each other are cut off, and not found any more. -/
def cycleCalls : List Call :=
  [.createLogOption "client", .createLogOption "server", .createLogOption "server",
    .movePtr 1 (some 0), .movePtr 0 (some 1), .moveName "server" "client"]

theorem log_traversals_end_cycle :
    ∃ m, exec LogManager.step new cycleCalls = some m ∧ m.childrenOf 0 = [1] ∧
      m.childrenOf 1 = [0] ∧ m.displayHierarchy 3 = some [(0, 2)] ∧
      (m.rootLogs ++ (List.range m.created).flatMap m.childrenOf).Perm (List.range m.created) := by
  have hrun : Run (ofFn LogManager.step) new cycleCalls _ := run_of_exec rfl
  exact ⟨_, rfl, by decide, by decide, by decide, (log_traversals_end hrun).1⟩

/-- As long as no option is moved under itself or its descendants, the display gets to
every option once, and the link of an option to its parent is to the one that holds
it. A move by a name that nothing within reach has changes nothing. -/
theorem log_hierarchy_forest {calls : List Call}
    (hrun : Run (Guarded (ofFn LogManager.step) NotUnder) new calls m) :
    (∃ visited, (∀ fuel, m.created ≤ fuel → m.displayHierarchy fuel = some visited) ∧
        (visited.map Prod.snd).Perm (List.range m.created)) ∧
      (∀ x < m.created, (∀ p, x ∈ m.childrenOf p ↔ m.parentOf x = some p) ∧
        (x ∈ m.rootLogs ↔ m.parentOf x = none)) ∧
      ∀ logOptionName newParentName,
        (∀ x, m.Reachable x → (m.option x).name ≠ logOptionName) →
          m.step (.moveName logOptionName newParentName) = some m := by
  rcases forest_of_run hrun with ⟨h, hp, hrooted⟩
  rcases hp.traversals with ⟨l, hvisits, hends⟩
  refine ⟨⟨l, fun fuel hfuel => (hends fuel hfuel).1, ?_⟩, fun x hx => ⟨fun p => ?_, ?_⟩, ?_⟩
  · rw [List.perm_ext_iff_of_nodup hvisits.nodup List.nodup_range, ← hp.nodes]
    intro y
    rw [hvisits.mem y]
    exact ⟨fun ⟨_, hk⟩ => hk.mem, hrooted y⟩
  · rw [hp.mem_childrenOf]
    exact and_iff_right hx
  · rw [hp.mem_rootLogs]
    exact and_iff_right hx
  · intro logOptionName newParentName hunknown
    rcases hp.moveByName_cases logOptionName newParentName with
      hsame | ⟨x, q, -, -, ⟨hx, hname⟩, -⟩
    · exact hsame
    · exact absurd hname (hunknown x hx)

/-- What is moved under an option holds nothing, and is not that option. -/
def MovesLeaf (m : LogManager) (call : Call) : Prop :=
  ∀ move ∈ m.moves call, ∀ p ∈ move.2, m.childrenOf move.1 = [] ∧ move.1 ≠ p

instance (m : LogManager) (call : Call) : Decidable (m.MovesLeaf call) :=
  inferInstanceAs (Decidable (∀ move ∈ m.moves call, ∀ p ∈ move.2, _))

theorem notUnder_of_movesLeaf {call : Call} (hleaf : m.MovesLeaf call) : m.NotUnder call := by
  intro x p hmoves hunder
  rcases hleaf (x, some p) hmoves p rfl with ⟨hempty, hne⟩
  rcases Relation.ReflTransGen.cases_head hunder with heq | ⟨y, hy, -⟩
  · exact hne heq
  · rw [Holds, hempty] at hy
    cases hy

/-- The first of two options of one name is moved to the roots, with what it holds. -/
def forestCalls : List Call :=
  [.createLogOption "client", .createLogOption "server", .createLogOption "server",
    .movePtr 1 (some 0), .movePtr 2 (some 1), .moveName "server" "game"]

theorem log_hierarchy_forest_names :
    ∃ m, exec LogManager.step new forestCalls = some m ∧ m.rootLogs = [0, 1] ∧
      m.childrenOf 1 = [2] ∧ ∃ visited, m.displayHierarchy 3 = some visited ∧
        (visited.map Prod.snd).Perm [0, 1, 2] := by
  have hleaves : Run (Guarded (ofFn LogManager.step) MovesLeaf) new forestCalls _ :=
    run_of_exec_guardFn rfl
  have hrun := hleaves.mono fun _ _ _ hs => And.intro hs.1 (notUnder_of_movesLeaf hs.2)
  rcases (log_hierarchy_forest hrun).1 with ⟨visited, hends, hperm⟩
  exact ⟨_, rfl, by decide, by decide, visited, hends 3 (Nat.le_refl 3), hperm⟩

end LogManager

end HobbitSynchrony
