import HobbitSynchrony.Lib.DeltaSync

/-! # Peers that relay change events

A group of peers, each with a state of its own and a queue of events from the
others. A peer's state changes locally; a peer can write an event, which goes
to everybody else; and a peer processes the oldest event in its queue.

A `View` looks at one item that the peers replicate: its live value, the part
of it that the peer has told the others about, and what a local change and an
event mean for it. A view is `Lawful` if the three operations do to the item
what the actions of `DeltaSync` do to a value. `resting_value` is what follows:
at rest all peers hold the start value plus all changes.
-/

namespace EventRelay

open Transition

universe u

variable {ι C M L : Type} {G : Type u}

/-- What a peer does: a local change, if it can be made; writing an event, if
there is something to write; processing an event. -/
structure Peer (C M L : Type) where
  change : L → C → Option C
  write : C → Option M × C
  process : M → C → C

/-- The peers and the events that are on their way to them. -/
structure State (ι C M : Type) where
  peer : ι → C
  inbox : ι → List M

inductive Action (ι L : Type) where
  | change (i : ι) (l : L)
  | write (i : ι)
  | process (i : ι)

/-- One item of the peers' states. -/
structure View (C M L : Type) (G : Type u) where
  value : C → G
  shared : C → G
  amount : L → G
  deltas : M → List G

/-- The sum of the local changes of the item in a run. -/
def changes [AddCommGroup G] (V : View C M L G) (as : List (Action ι L)) : G :=
  (as.map fun a => match a with
    | .change _ l => V.amount l
    | _ => 0).sum

/-- A write and the processing of an event meet these conditions. -/
def Meets (writeOk : C → Prop) (processOk : M → C → Prop) (s : State ι C M) : Action ι L → Prop
  | .change _ _ => True
  | .write i => writeOk (s.peer i)
  | .process i => ∀ m ∈ (s.inbox i).head?, processOk m (s.peer i)

instance (writeOk : C → Prop) (processOk : M → C → Prop) [DecidablePred writeOk]
    [∀ m c, Decidable (processOk m c)] (s : State ι C M) (a : Action ι L) :
    Decidable (Meets writeOk processOk s a) := by
  unfold Meets
  split <;> infer_instance

section steps

variable [DecidableEq ι]

/-- The steps. A written event goes to the queues of all other peers. -/
def step (P : Peer C M L) (s : State ι C M) : Action ι L → Option (State ι C M)
  | .change i l =>
    (P.change l (s.peer i)).map fun c => { s with peer := Function.update s.peer i c }
  | .write i => some
      { peer := Function.update s.peer i (P.write (s.peer i)).2
        inbox := fun j =>
          if j = i then s.inbox j else s.inbox j ++ (P.write (s.peer i)).1.toList }
  | .process i =>
    match s.inbox i with
    | [] => none
    | m :: rest => some
        { peer := Function.update s.peer i (P.process m (s.peer i))
          inbox := Function.update s.inbox i rest }

end steps

/-! ## Lawful views -/

/-- The operations on the item, for peers that meet `Inv` and events that meet
`Ok`. A written event has what was not shared as its only delta; if it has
none, there was nothing to share. -/
structure Lawful [AddCommGroup G] (P : Peer C M L) (V : View C M L G) (Inv : C → Prop)
    (Ok : M → Prop) (writeOk : C → Prop) (processOk : M → C → Prop) : Prop where
  change : ∀ l c c', Inv c → P.change l c = some c' →
    Inv c' ∧ V.value c' = V.value c + V.amount l ∧ V.shared c' = V.shared c
  write : ∀ c, Inv c → writeOk c →
    Inv (P.write c).2 ∧ V.value (P.write c).2 = V.value c ∧ V.shared (P.write c).2 = V.value c
  event : ∀ c, Inv c → writeOk c → (∀ m ∈ (P.write c).1, Ok m) ∧
    ((P.write c).1.toList.flatMap V.deltas = [V.value c - V.shared c] ∨
      (P.write c).1.toList.flatMap V.deltas = [] ∧ V.value c = V.shared c)
  process : ∀ m c, Inv c → Ok m → processOk m c →
    Inv (P.process m c) ∧ V.value (P.process m c) = V.value c + (V.deltas m).sum ∧
      V.shared (P.process m c) = V.shared c + (V.deltas m).sum

/-- Every peer and every event on its way is as it should be. -/
structure AllOk (Inv : C → Prop) (Ok : M → Prop) (s : State ι C M) : Prop where
  peer : ∀ i, Inv (s.peer i)
  event : ∀ i, ∀ m ∈ s.inbox i, Ok m

/-- The item, as a replicated value. -/
def item (V : View C M L G) (s : State ι C M) : DeltaSync.State ι G where
  value := fun i => V.value (s.peer i)
  shared := fun i => V.shared (s.peer i)
  inbox := fun i => (s.inbox i).flatMap V.deltas

section simulation

variable [DecidableEq ι] [AddCommGroup G] {P : Peer C M L} {V : View C M L G} {Inv : C → Prop}
  {Ok : M → Prop} {writeOk : C → Prop} {processOk : M → C → Prop}

/-- A function of the peers, after one of them has changed. -/
theorem comp_update {β : Type u} (f : C → β) (peer : ι → C) (i : ι) (c : C) :
    (fun j => f (Function.update peer i c j)) =
      Function.update (fun j => f (peer j)) i (f c) := by
  funext j
  by_cases hj : j = i
  · subst hj
    rw [Function.update_self, Function.update_self]
  · rw [Function.update_of_ne hj, Function.update_of_ne hj]

/-- A local change of the peer is one of the item. -/
theorem item_change {s : State ι C M} {i : ι} {c : C} {d : G}
    (hvalue : V.value c = V.value (s.peer i) + d) (hshared : V.shared c = V.shared (s.peer i)) :
    item V { s with peer := Function.update s.peer i c } = (item V s).change i d := by
  simp only [item, DeltaSync.State.change, comp_update, hvalue, hshared, Function.update_eq_self]

/-- Writing an event is publishing, or it is nothing. -/
theorem item_write (hV : Lawful P V Inv Ok writeOk processOk) {s : State ι C M} {i : ι}
    (hinv : Inv (s.peer i)) (hok : writeOk (s.peer i)) :
    ∃ bs, DeltaSync.changes bs = (0 : G) ∧ Run (ofFn DeltaSync.step) (item V s) bs (item V
      { peer := Function.update s.peer i (P.write (s.peer i)).2
        inbox := fun j =>
          if j = i then s.inbox j else s.inbox j ++ (P.write (s.peer i)).1.toList }) := by
  rcases hV.write _ hinv hok with ⟨-, hvalue, hshared⟩
  have hinbox : ∀ ds, (P.write (s.peer i)).1.toList.flatMap V.deltas = ds →
      (fun j => (if j = i then s.inbox j
        else s.inbox j ++ (P.write (s.peer i)).1.toList).flatMap V.deltas) =
      fun j => if j = i then (s.inbox j).flatMap V.deltas
        else (s.inbox j).flatMap V.deltas ++ ds := by
    intro ds hds
    funext j
    split
    · rfl
    · rw [List.flatMap_append, hds]
  rcases (hV.event _ hinv hok).2 with hdelta | ⟨hnone, heq⟩
  · -- the event carries what was not shared
    refine ⟨[.publish i], DeltaSync.changes_publish i, Run.single ?_⟩
    simp only [ofFn, DeltaSync.step, item, DeltaSync.State.publish, DeltaSync.State.pending,
      comp_update, hvalue, hshared, Function.update_eq_self, hinbox _ hdelta]
  · -- there was nothing to share, so the item is as it was
    refine ⟨[], DeltaSync.changes_nil, ?_⟩
    have hsame : item V { peer := Function.update s.peer i (P.write (s.peer i)).2
                          inbox := fun j => if j = i then s.inbox j
                            else s.inbox j ++ (P.write (s.peer i)).1.toList } = item V s := by
      have hself : Function.update (fun j => V.shared (s.peer j)) i (V.value (s.peer i)) =
          fun j => V.shared (s.peer j) := by
        rw [heq]
        exact Function.update_eq_self i _
      simp only [item, comp_update, hvalue, hshared, hself, Function.update_eq_self,
        hinbox _ hnone, List.append_nil, ite_self]
    rw [hsame]
    exact Run.nil

/-- Processing an event is delivering its deltas. -/
theorem item_process {s : State ι C M} {i : ι} {m : M} {rest : List M} {c : C}
    (hm : s.inbox i = m :: rest) (hvalue : V.value c = V.value (s.peer i) + (V.deltas m).sum)
    (hshared : V.shared c = V.shared (s.peer i) + (V.deltas m).sum) :
    Run (ofFn DeltaSync.step) (item V s)
      (List.replicate (V.deltas m).length (.deliver i))
      (item V { peer := Function.update s.peer i c, inbox := Function.update s.inbox i rest }) := by
  have hinbox : (item V s).inbox i = V.deltas m ++ rest.flatMap V.deltas := by
    simp only [item, hm, List.flatMap_cons]
  have hafter : item V { peer := Function.update s.peer i c
                         inbox := Function.update s.inbox i rest } =
      (item V s).deliver i (V.deltas m).sum (rest.flatMap V.deltas) := by
    simp only [item, DeltaSync.State.deliver, comp_update, hvalue, hshared]
  rw [hafter]
  exact DeltaSync.run_deliver_all _ _ _ _ hinbox

/-- A step that meets the conditions keeps every peer and every event as they
should be. -/
theorem allOk_step (hV : Lawful P V Inv Ok writeOk processOk) {s s' : State ι C M}
    {a : Action ι L} (hs : AllOk Inv Ok s)
    (h : Guarded (ofFn (step P)) (Meets writeOk processOk) s a s') : AllOk Inv Ok s' := by
  -- one peer changes, the others are as they were
  have hupdate : ∀ i c, Inv c → ∀ j, Inv (Function.update s.peer i c j) := by
    intro i c hc j
    by_cases hj : j = i
    · subst hj
      rwa [Function.update_self]
    · rw [Function.update_of_ne hj]
      exact hs.peer j
  rcases h with ⟨h, hmeets⟩
  cases a with
  | change i l =>
      rcases Option.map_eq_some_iff.1 h with ⟨c, hc, rfl⟩
      exact ⟨hupdate i c (hV.change l _ c (hs.peer i) hc).1, hs.event⟩
  | write i =>
      cases h
      refine ⟨hupdate i _ (hV.write _ (hs.peer i) hmeets).1, ?_⟩
      intro j m hm
      dsimp only at hm
      -- the writer gets no event, the others get the new one
      split at hm
      · exact hs.event j m hm
      · rcases List.mem_append.1 hm with hm | hm
        · exact hs.event j m hm
        · exact (hV.event _ (hs.peer i) hmeets).1 m (Option.mem_toList.1 hm)
  | process i =>
      simp only [ofFn, step] at h
      split at h
      next => cases h
      next m rest hm =>
        cases h
        have hhead : m ∈ (s.inbox i).head? := by
          rw [hm]
          rfl
        have hok : Ok m := hs.event i m (hm ▸ List.mem_cons_self)
        refine ⟨hupdate i _ (hV.process m _ (hs.peer i) hok (hmeets m hhead)).1, ?_⟩
        intro j m' hm'
        dsimp only at hm'
        -- the queue of `i` has lost its head
        by_cases hj : j = i
        · subst hj
          rw [Function.update_self] at hm'
          exact hs.event j m' (hm ▸ List.mem_cons_of_mem m hm')
        · rw [Function.update_of_ne hj] at hm'
          exact hs.event j m' hm'

/-- Every action is some actions of the item, with the same changes. -/
theorem item_step (hV : Lawful P V Inv Ok writeOk processOk) {s s' : State ι C M}
    {a : Action ι L} (hs : AllOk Inv Ok s)
    (h : Guarded (ofFn (step P)) (Meets writeOk processOk) s a s') :
    ∃ bs, DeltaSync.changes bs = changes V [a] ∧
      Run (ofFn DeltaSync.step) (item V s) bs (item V s') := by
  rcases h with ⟨h, hmeets⟩
  cases a with
  | change i l =>
      rcases Option.map_eq_some_iff.1 h with ⟨c, hc, rfl⟩
      rcases hV.change l _ c (hs.peer i) hc with ⟨-, hvalue, hshared⟩
      refine ⟨[.change i (V.amount l)], ?_, ?_⟩
      · simp [changes]
      · rw [item_change hvalue hshared]
        exact Run.single rfl
  | write i =>
      cases h
      rcases item_write hV (hs.peer i) hmeets with ⟨bs, hbs, hrun⟩
      refine ⟨bs, ?_, hrun⟩
      simpa [changes] using hbs
  | process i =>
      simp only [ofFn, step] at h
      split at h
      next => cases h
      next m rest hm =>
        cases h
        have hhead : m ∈ (s.inbox i).head? := by
          rw [hm]
          rfl
        have hok : Ok m := hs.event i m (hm ▸ List.mem_cons_self)
        rcases hV.process m _ (hs.peer i) hok (hmeets m hhead) with ⟨-, hvalue, hshared⟩
        refine ⟨_, ?_, item_process hm hvalue hshared⟩
        simp [changes]

/-! ## Whole runs -/

/-- A run of the peers is a run of the item, with the same changes. -/
theorem item_run (hV : Lawful P V Inv Ok writeOk processOk) {s₀ s : State ι C M}
    {as : List (Action ι L)} (h₀ : AllOk Inv Ok s₀)
    (h : Run (Guarded (ofFn (step P)) (Meets writeOk processOk)) s₀ as s) :
    ∃ bs, DeltaSync.changes bs = changes V as ∧
      Run (ofFn DeltaSync.step) (item V s₀) bs (item V s) := by
  have hsim : ∀ (s : State ι C M) (a : Action ι L) s' t,
      Guarded (ofFn (step P)) (Meets writeOk processOk) s a s' →
      AllOk Inv Ok s ∧ t = item V s →
      ∃ bs t', DeltaSync.changes bs = changes V [a] ∧
        Run (ofFn DeltaSync.step) t bs t' ∧ AllOk Inv Ok s' ∧ t' = item V s' := by
    rintro s a s' t hstep ⟨hs, rfl⟩
    rcases item_step hV hs hstep with ⟨bs, hbs, hrun⟩
    exact ⟨bs, _, hbs, hrun, allOk_step hV hs hstep, rfl⟩
  rcases Run.simulation hsim ⟨h₀, rfl⟩ h with ⟨bss, t, hL, hrun, -, rfl⟩
  refine ⟨bss.flatten, ?_, hrun⟩
  -- the changes add up action by action
  clear hrun h
  induction hL with
  | nil => rfl
  | cons ha _ ih =>
      rw [List.flatten_cons, DeltaSync.changes_append, ha, ih]
      simp [changes]

/-- At rest, when no event is on its way and every peer has shared its value,
all peers hold the start value plus all changes. -/
theorem resting_value [Fintype ι] (hV : Lawful P V Inv Ok writeOk processOk) {v : G}
    {s₀ s : State ι C M} {as : List (Action ι L)} (hinv : ∀ i, Inv (s₀.peer i))
    (hnone : ∀ i, s₀.inbox i = []) (hvalue : ∀ i, V.value (s₀.peer i) = v)
    (hshared : ∀ i, V.shared (s₀.peer i) = v)
    (h : Run (Guarded (ofFn (step P)) (Meets writeOk processOk)) s₀ as s)
    (hin : ∀ i, s.inbox i = []) (hrest : ∀ i, V.shared (s.peer i) = V.value (s.peer i)) (i : ι) :
    V.value (s.peer i) = v + changes V as := by
  -- no event is on its way at the start
  have hok : AllOk Inv Ok s₀ := by
    refine ⟨hinv, ?_⟩
    intro j m hm
    rw [hnone j] at hm
    cases hm
  rcases item_run hV hok h with ⟨bs, hbs, hrun⟩
  -- at the start the item is a value that everybody has shared
  have hstart : item V s₀ = DeltaSync.start v := by
    simp only [item, DeltaSync.start, hvalue, hshared, hnone, List.flatMap_nil]
  rw [hstart] at hrun
  have hquiet : ∀ j, (item V s).inbox j = [] := by
    intro j
    simp only [item, hin, List.flatMap_nil]
  have hfinal := DeltaSync.quiescent_value hrun hquiet hrest i
  rw [← hbs]
  exact hfinal

end simulation

end EventRelay
