import HobbitSynchrony.SnapshotMailbox
import HobbitSynchrony.TurnsEnd

/-! # The latest snapshots are shown

If nobody joins or leaves, and a client receives nothing while its `readMessage` is
between a copy of the snapshots and the last clear, it shows the latest snapshot of
another client as soon as none is on its way.

* `Rests`: nothing of one client is on its way to the slots of the other;
* `connected_step`: the two clients stay connected;
* `run_handle`: a copy is handled, and the inbox cleared;
* `shows_latest`: at rest the latest snapshot is shown.
-/

namespace HobbitSynchrony

open Transition HobbitProcessAnalyzer

namespace Multiplayer

variable {F : Type}

/-- No snapshot of client `n` is still to be sent, on its way to client `r`, in its
inbox or copied out of it. -/
structure Rests (n r : ℕ) (w : World F) : Prop where
  messages : (w.program n).thread.messages.flatMap snapPayload = []
  way : w.net.onTheWay snapPayload n r = []
  box : (w.net.conn r).client.snapshotMessages (w.net.conn n).clientHandler.clientID = none
  copied : copiedOf (w.net.conn n).clientHandler.clientID (w.program r).thread = []

/-- An inbox that is cleared, behind the last copy. -/
theorem rests_clear {w : World F} {n r : ℕ} (hnr : n ≠ r)
    (hmessages : (w.program n).thread.messages = [])
    (hway : w.net.onTheWay snapPayload n r = []) {h : Program F} (hcopied : h.thread.copied = []) :
    Rests n r ⟨w.net.modify r fun conn =>
      { conn with client := conn.client.clearSnapMessage }, Function.update w.program r h⟩ where
  messages := by
    dsimp only
    rw [Function.update_of_ne hnr, hmessages]
    rfl
  way := by
    rw [← hway]
    have hn : ((w.net.modify r fun conn =>
        { conn with client := conn.client.clearSnapMessage }).conn n) = w.net.conn n := by
      rw [Net.conn_modify, Function.update_of_ne hnr]
    refine onTheWay_congr ?_ (by dsimp only; rw [hn]) (by dsimp only; rw [hn])
    rw [Net.conn_modify, Function.update_self]
  box := by
    rw [Net.conn_modify, Function.update_self]
    rfl
  copied := by
    unfold copiedOf
    dsimp only
    rw [Function.update_self, hcopied]
    rfl

/-! ## The two clients stay connected -/

/-- A player's slot goes by the IDs of the slots. -/
theorem slotOf_congr {g g' : GameState UInt8 F}
    (h : ∀ i, (g'.connectedPlayers i).id = (g.connectedPlayers i).id) (senderID : UInt8) :
    slotOf g' senderID = slotOf g senderID := by
  unfold slotOf
  simp only [h]

/-- No list of clients is delivered to `r`, so its listeners are not called. -/
theorem heard_of_quiet {w : World F} {r : ℕ} (hquiet : w.net.Quiet r)
    {a : HobbitSynchrony.Action} (hcalm : a.Calm) : w.heard a r = w.program r := by
  unfold World.heard
  cases a with
  | deliver m =>
      dsimp only
      by_cases hrm : r = m
      · subst hrm
        cases hflight : (w.net.conn r).inFlight with
        | nil => rfl
        | cons frame rest =>
            have hbody := hquiet frame (by rw [hflight]; exact List.mem_cons_self)
            have hnone : rosterData frame.body = none := by
              unfold rosterData
              cases hmsg : deserializeMessage frame.body with
              | none => rfl
              | some msg => exact if_neg fun hlist => hbody msg hmsg (.inl hlist)
            rw [List.head?_cons, Option.bind_some, hnone]
      · cases (w.net.conn m).inFlight.head?.bind fun frame => rosterData frame.body with
        | none => rfl
        | some data => exact Function.update_of_ne hrm _ _
  | clientSend | read | broadcast => rfl
  | accept | sendID | acceptNotify | spawn | hangup | remove | exitNotify | lose =>
      exact hcalm.elim

variable [FixedWidth UInt8 F 4] [Zero F] [Add F] [Sub F] [BEq F] [LT F] [DecidableLT F]

omit [Sub F] [BEq F] in
/-- A message leaves the IDs of the slots alone. -/
theorem id_readGameMessage (h : Program F) (senderID : UInt8) (message : List UInt8)
    (point : UpdatePoint) (i : Fin 7) :
    ((h.readGameMessage senderID message point).game.connectedPlayers i).id =
      (h.game.connectedPlayers i).id := by
  have hR : ChangeRelation fun g g' : GameState UInt8 F =>
      ∀ i, (g'.connectedPlayers i).id = (g.connectedPlayers i).id :=
    { refl := fun _ _ => rfl
      trans := fun h h' i => (h' i).trans (h i)
      slot := by
        intro g slot set hset i
        dsimp only
        split
        · exact hset _
        · rfl
      level := fun _ _ _ => rfl
      enemy := fun _ _ _ _ _ _ => rfl
      item := fun _ _ _ _ _ _ => rfl }
  rw [Program.game_readGameMessage]
  exact readGameMessage_within hR h.messageLabelStates senderID message h.game i

/-- The update thread leaves the IDs of the slots and the labels alone. -/
theorem ids_update {c c' : Client} {h h' : Program F} (hupdate : h.update c = some (c', h')) :
    (∀ i, (h'.game.connectedPlayers i).id = (h.game.connectedPlayers i).id) ∧
      h'.messageLabelStates = h.messageLabelStates := by
  cases Program.update_cases hupdate with
  | event | throws | handle =>
      exact ⟨id_readGameMessage h _ _ _, Program.labels_readGameMessage h _ _ _⟩
  | _ => exact ⟨fun _ => rfl, rfl⟩

omit [Add F] in
theorem not_isControl_of_written {limit : ℕ} {msg : BaseMessage UInt8} (h : Written F limit msg) :
    ¬ IsControl msg := by
  rcases h with ⟨process, ptrs, player, -, m, hm, htype, -⟩
  unfold IsControl
  rw [htype]
  rcases MainPlayer.mem_write hm with rfl | ⟨rfl, hpos⟩ | ⟨player', rfl, hpos⟩
  · show ¬ (snapshotMessage = clientListMessage ∨ snapshotMessage = clientIDMessage)
    decide
  · rw [messageType_writeEnemiesEvent _ _ hpos]
    decide
  · rw [messageType_writeInventoryEvent _ _ hpos]
    decide

omit [Add F] in
/-- What the invariant asks of the receiver's program. -/
theorem Connected.at {limit n r : ℕ} {j : Fin 7} {w w' : World F} (hs : Connected limit n r j w)
    (authentic : Authentic limit w') (serving : Serving w'.net)
    (haccepts : w'.net.accepts = w.net.accepts) (hclients : w'.net.clients = w.net.clients)
    (hquiet : w'.net.Quiet r)
    (hid : (w'.net.conn n).clientHandler = (w.net.conn n).clientHandler)
    (hids : ∀ i, ((w'.program r).game.connectedPlayers i).id =
      ((w.program r).game.connectedPlayers i).id)
    (hlabel : (w'.program r).messageLabelStates.processLabel .connectedPlayerSnap =
      (w.program r).messageLabelStates.processLabel .connectedPlayerSnap) :
    Connected limit n r j w' where
  authentic := authentic
  serving := serving
  sender := haccepts ▸ hs.sender
  receiver := hclients ▸ hs.receiver
  quiet := hquiet
  slot := by
    rw [hid, slotOf_congr hids]
    exact hs.slot
  seated := by
    rw [hid, hids]
    exact hs.seated
  enabled := hlabel.trans hs.enabled

omit [Add F] in
/-- One program goes on, with the IDs and the label that it had. -/
theorem Connected.program {limit n r m : ℕ} {j : Fin 7} {w : World F}
    (hs : Connected limit n r j w) {net : Net} {program : Program F}
    (authentic : Authentic limit ⟨net, Function.update w.program m program⟩)
    (serving : Serving net) (haccepts : net.accepts = w.net.accepts)
    (hclients : net.clients = w.net.clients) (hquiet : net.Quiet r)
    (hid : (net.conn n).clientHandler = (w.net.conn n).clientHandler)
    (hids : ∀ i, (program.game.connectedPlayers i).id =
      ((w.program m).game.connectedPlayers i).id)
    (hlabel : m = r → program.messageLabelStates.processLabel .connectedPlayerSnap =
      (w.program m).messageLabelStates.processLabel .connectedPlayerSnap) :
    Connected limit n r j ⟨net, Function.update w.program m program⟩ := by
  refine hs.at authentic serving haccepts hclients hquiet hid ?_ ?_
  · intro i
    dsimp only
    by_cases hrm : r = m
    · subst hrm
      rw [Function.update_self]
      exact hids i
    · rw [Function.update_of_ne hrm]
  · dsimp only
    by_cases hrm : r = m
    · subst hrm
      rw [Function.update_self]
      exact hlabel rfl
    · rw [Function.update_of_ne hrm]

theorem connected_step {limit n r : ℕ} {j : Fin 7} (hlimit : limit ≤ 255) {w w' : World F}
    {a : Action F} (hs : Connected limit n r j w)
    (h : Guarded World.step (Together limit r) w a w') : Connected limit n r j w' := by
  rcases h with ⟨hstep, hmanageable, hcalm, hattentive⟩
  have authentic := authentic_step hlimit hs.authentic ⟨hstep, hmanageable⟩
  have hr : r < w.net.accepts := present_lt hs.serving.wellFormed hs.receiver
  have hfew := hs.serving.few
  have hquiet : ∀ {b : HobbitSynchrony.Action} {net : Net}, Step w.net b net → b.Calm →
      net.Quiet r := fun hb hcalm => hs.quiet.step hb hcalm hr fun m msg hpc =>
        not_isControl_of_written (hs.authentic.honest.carries.broadcasting m msg hpc)
  cases World.step_cases hstep with
  | net b net hb hsend haccept =>
      rcases clients_of_calm hb hcalm with ⟨hclients, haccepts⟩
      have hheard := heard_of_quiet hs.quiet hcalm
      refine hs.at authentic (hs.serving.step hb (haccepts ▸ hfew)) haccepts hclients
        (hquiet hb hcalm) (hb.clientHandler hs.sender) ?_ ?_
      · intro i
        dsimp only
        rw [hheard]
      · dsimp only
        rw [hheard]
  | join | rejoin => exact hcalm.elim
  | start | play | enterNewLevel | exitLevel | pass =>
      exact hs.program authentic hs.serving rfl rfl hs.quiet rfl (fun _ => rfl) fun _ => rfl
  | setLabel m label enable hm =>
      refine hs.program authentic hs.serving rfl rfl hs.quiet rfl (fun _ => rfl) fun hmr => ?_
      have hne : DataLabel.connectedPlayerSnap ≠ label := fun heq => hattentive hmr heq.symm
      unfold LabelStates.processLabel Program.setMessageLabelProcessing
      dsimp only
      rw [Function.update_of_ne hne]
  | send m msg messages net hm hthread hb =>
      rcases clients_of_calm hb trivial with ⟨hclients, haccepts⟩
      exact hs.program authentic (hs.serving.step hb (haccepts ▸ hfew)) haccepts hclients
        (hquiet hb trivial) (hb.clientHandler hs.sender) (fun _ => rfl) fun _ => rfl
  | update m c program hm hupdate =>
      rcases ids_update hupdate with ⟨hids, hlabels⟩
      refine hs.program authentic (hs.serving.withClient m c) rfl rfl ?_
        (w.net.clientHandler_modify rfl n) hids fun _ => by rw [hlabels]
      intro frame hframe
      apply hs.quiet frame
      by_cases hrm : r = m
      · subst hrm
        rwa [Net.conn_modify, Function.update_self] at hframe
      · rwa [Net.conn_modify, Function.update_of_ne hrm] at hframe

/-- A copy of a player's snapshot is handled, and the inbox cleared. -/
theorem run_handle {limit r : ℕ} {w : World F} (hs : Honest limit w) (hr : r < w.net.accepts)
    {pair : UInt8 × BaseMessage UInt8} {copy : List (UInt8 × BaseMessage UInt8)}
    (hthread : (w.program r).thread = .handle (pair :: copy))
    (hseated : ∃ i, ((w.program r).game.connectedPlayers i).id = pair.1.toNat) :
    ∃ h : Program F, h.thread = .handle copy ∧
      Run (Guarded World.step (Together limit r)) w (List.replicate 2 (.update r))
        ⟨w.net.modify r fun conn => { conn with client := conn.client.clearSnapMessage },
          Function.update w.program r h⟩ := by
  have hafter := (hs.good r hr).thread_snap hthread
  have hupdate : (w.program r).update (w.net.conn r).client = some ((w.net.conn r).client,
      (w.program r).readGameMessage pair.1 pair.2.message (.clear copy)) := by
    unfold Program.update
    rw [hthread]
  have hfirst : World.step w (.update r) ⟨w.net, Function.update w.program r
      ((w.program r).readGameMessage pair.1 pair.2.message (.clear copy))⟩ := by
    show w.update r = some _
    unfold World.update
    simp only [if_pos hr, hthread]
    rw [hupdate]
    have hsame : (w.net.modify r fun conn => { conn with client := (w.net.conn r).client }) =
        w.net := by
      unfold Net.modify
      simp
    exact congrArg (fun net => some (⟨net, _⟩ : World F)) hsame
  refine ⟨{ (w.program r).readGameMessage pair.1 pair.2.message (.clear copy) with
    thread := .handle copy }, rfl, ?_⟩
  have hsecond : World.step ⟨w.net, Function.update w.program r
      ((w.program r).readGameMessage pair.1 pair.2.message (.clear copy))⟩ (.update r)
      ⟨w.net.modify r fun conn => { conn with client := conn.client.clearSnapMessage },
        Function.update w.program r { (w.program r).readGameMessage pair.1 pair.2.message
          (.clear copy) with thread := .handle copy }⟩ := by
    show World.update _ _ = some _
    unfold World.update
    dsimp only
    rw [if_pos hr, Function.update_self, hafter]
    dsimp only
    have hclear : ((w.program r).readGameMessage pair.1 pair.2.message (.clear copy)).update
        (w.net.conn r).client = some ((w.net.conn r).client.clearSnapMessage,
          { (w.program r).readGameMessage pair.1 pair.2.message (.clear copy) with
            thread := .handle copy }) := by
      unfold Program.update
      rw [hafter]
    rw [hclear]
    simp [Net.modify]
  have hboth : Attentive r w (.update r) := by
    intro _ p hp
    rw [hthread] at hp
    cases hp
    exact hseated
  have hidle : Attentive r ⟨w.net, Function.update w.program r
      ((w.program r).readGameMessage pair.1 pair.2.message (.clear copy))⟩ (.update r) := by
    intro _ p hp
    dsimp only at hp
    rw [Function.update_self, hafter] at hp
    cases hp
  exact (Run.single ⟨hfirst, trivial, trivial, hboth⟩).append
    (Run.single ⟨hsecond, trivial, trivial, hidle⟩)

/-! ## Whole runs -/

/-- At rest a client shows the latest snapshot of another one, however many have been
written, sent and overwritten on the way. -/
theorem shows_latest {limit : ℕ} (hlimit : limit ≤ 255) {program : Program F}
    {as as' : List (Action F)} {w₀ w : World F} {n r : ℕ} (hnr : n ≠ r)
    (hrun : Run (Guarded World.step (Manageable limit)) (World.start program) as w₀)
    (hfew : w₀.net.accepts < 256) (hn : n < w₀.net.accepts) (hr : Present r w₀.net.clients)
    (hquiet : w₀.net.Quiet r)
    (hseated : ∃ i, ((w₀.program r).game.connectedPlayers i).id =
      (w₀.net.conn n).clientHandler.clientID.toNat)
    (henabled : (w₀.program r).messageLabelStates.processLabel .connectedPlayerSnap = true)
    (hidle : (w₀.program r).thread.Going = false)
    (hrun' : Run (Guarded World.step (Together limit r)) w₀ as' w)
    (hmore : (w₀.program n).snapshots.length < (w.program n).snapshots.length)
    (hrests : Rests n r w) :
    (w.program n).snapshots.getLast? = some ((w.program r).game.connectedPlayers
      (slotOf (w.program r).game (w.net.conn n).clientHandler.clientID)).snapshot := by
  have hauthentic : Authentic limit w₀ := hrun.invariant
    (fun _ _ _ hstep hs => authentic_step hlimit hs hstep) (authentic_start limit program)
  have hserving := serving_run (hrun.mono fun _ _ _ h => h.1) hfew
  rcases hseated with ⟨i, hi⟩
  have hconnected : Connected limit n r
      (slotOf (w₀.program r).game (w₀.net.conn n).clientHandler.clientID) w₀ :=
    ⟨hauthentic, hserving, hn, hr, hquiet, rfl, id_slotOf hi, henabled⟩
  rcases Run.simulation (R := fun w t => Connected limit n r
      (slotOf (w₀.program r).game (w₀.net.conn n).clientHandler.clientID) w ∧
      t = w.mailbox n r (slotOf (w₀.program r).game (w₀.net.conn n).clientHandler.clientID))
    (L := fun _ _ => True)
    (fun w a w' t h ⟨hs, ht⟩ => by
      rcases mailbox_step hs hnr h with ⟨bs, hbs⟩
      exact ⟨bs, _, trivial, ht ▸ hbs, connected_step hlimit hs h, rfl⟩)
    ⟨hconnected, rfl⟩ hrun' with ⟨bss, t, -, hmailbox, hs, rfl⟩
  have hheld : LatestValue.Held (w₀.mailbox n r
      (slotOf (w₀.program r).game (w₀.net.conn n).clientHandler.clientID)) := by
    intro hbusy
    have hfalse : (w₀.program r).thread.Going = true := hbusy
    rw [hidle] at hfalse
    cases hfalse
  have hshown := LatestValue.shown_at_rest hheld hmailbox hrests.copied ?box ?queue ?more
  case box => exact congrArg (Option.map BaseMessage.message) hrests.box
  case queue => exact congrArg₂ (· ++ ·) hrests.way hrests.messages
  case more =>
    show ((w₀.program n).snapshots.map payload).length <
      ((w.program n).snapshots.map payload).length
    rwa [List.length_map, List.length_map]
  have hlast : ((w.program n).snapshots.getLast?).map payload = some (payload
      ((w.program r).game.connectedPlayers
        (slotOf (w.program r).game (w.net.conn n).clientHandler.clientID)).snapshot) := by
    rw [← List.getLast?_map, hs.slot]
    exact hshown
  rcases Option.map_eq_some_iff.1 hlast with ⟨snap, hsnap, hpayload⟩
  rw [hsnap, payload_injective (w.program r).game hpayload]

/-! ## Two clients that have met -/

/-- The first client takes a turn; the second one gets its snapshot and copies it. -/
def showTurn : List (Action UInt32) :=
  List.replicate 13 (.update 0) ++ [.net (.read 0), .net (.broadcast 0), .net (.deliver 1)] ++
    List.replicate 3 (.update 1)

set_option maxRecDepth 4000 in
theorem isSome_showTurn :
    (exec (guardFn World.next (Together 20 1)) afterMeet showTurn).isSome := by
  decide

/-- The world when the second client has copied the snapshot of the first one. -/
def afterCopy : World UInt32 :=
  (exec (guardFn World.next (Together 20 1)) afterMeet showTurn).get isSome_showTurn

set_option maxRecDepth 4000 in
theorem afterMeet_connected : 0 < afterMeet.net.accepts ∧ afterMeet.net.accepts < 256 ∧
    Present 1 afterMeet.net.clients ∧ (afterMeet.net.conn 1).inFlight = [] ∧
    (∃ i, ((afterMeet.program 1).game.connectedPlayers i).id =
      (afterMeet.net.conn 0).clientHandler.clientID.toNat) ∧
    (afterMeet.program 1).messageLabelStates.processLabel .connectedPlayerSnap = true ∧
    (afterMeet.program 1).thread.Going = false := by
  decide

set_option maxRecDepth 4000 in
theorem afterCopy_copied : 1 < afterCopy.net.accepts ∧
    (afterCopy.program 1).thread.copied.map Prod.fst = [1] ∧
    (∃ i, ((afterCopy.program 1).game.connectedPlayers i).id = 1) ∧
    (afterCopy.program 1).thread.next.map Prod.fst = some 1 ∧
    (afterMeet.program 0).snapshots.length < (afterCopy.program 0).snapshots.length ∧
    afterCopy.net.onTheWay snapPayload 0 1 = [] ∧
    (afterCopy.program 0).thread.messages = [] := by
  refine ⟨?_, ?_, ?_, ?_, ?_, ?_, List.length_eq_zero_iff.1 ?_⟩ <;> decide

theorem shows_latest_met : ∃ w : World UInt32, ∃ as,
    Run (Guarded World.step (Together 20 1)) afterMeet as w ∧
      (w.program 0).snapshots.getLast? = some ((w.program 1).game.connectedPlayers
        (slotOf (w.program 1).game (w.net.conn 0).clientHandler.clientID)).snapshot := by
  rcases afterMeet_connected with ⟨hn, hfew, hr, hflight, hseated, henabled, hidle⟩
  rcases afterCopy_copied with ⟨haccepts, hcopied, hseat, hnext, hmore, hway, hmessages⟩
  have hrun : Run (Guarded World.step (Manageable 20)) (World.start newcomer) meet afterMeet :=
    run_of_isSome isSome_meet
  have hcopy : Run (Guarded World.step (Together 20 1)) afterMeet showTurn afterCopy :=
    run_of_isSome isSome_showTurn
  have honest : Honest 20 afterCopy :=
    honest_run (by decide) (hrun.append (hcopy.mono fun _ _ _ h => ⟨h.1, h.2.1⟩))
  have hquiet : afterMeet.net.Quiet 1 := by
    intro frame hframe
    rw [hflight] at hframe
    cases hframe
  have hthread : ∃ msg, (afterCopy.program 1).thread = .handle [(1, msg)] := by
    unfold UpdatePoint.next at hnext
    split at hnext
    next pair copy hthread =>
      have hid : pair.1 = 1 := Option.some.inj hnext
      rw [hthread] at hcopied
      have hcopy : copy = [] := List.map_eq_nil_iff.1 (List.tail_eq_of_cons_eq hcopied)
      exact ⟨pair.2, by rw [hthread, hcopy, ← hid]⟩
    next => cases hnext
  rcases hthread with ⟨msg, hthread⟩
  rcases run_handle honest haccepts hthread hseat with ⟨h, hafter, hhandle⟩
  have hother : Function.update afterCopy.program 1 h 0 = afterCopy.program 0 :=
    Function.update_of_ne (by decide) _ _
  have hcopies : h.thread.copied = [] := by
    rw [hafter]
    rfl
  refine ⟨_, _, hcopy.append hhandle, shows_latest (by decide) (by decide) hrun hfew hn hr hquiet
    hseated henabled hidle (hcopy.append hhandle) ?_
    (rests_clear (by decide) hmessages hway hcopies)⟩
  dsimp only
  rwa [hother]

end Multiplayer

end HobbitSynchrony
