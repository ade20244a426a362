import HobbitSynchrony.GenuineSnapshots
import HobbitSynchrony.MessageSums
import HobbitSynchrony.TurnsEnd

/-! # Values that the clients share

A value in every client's game, which the clients tell each other the changes of: they
are written as events, sent, stamped, relayed, sorted into the inboxes and handled there
one by one. While nobody joins or leaves, no change is lost on the way and none comes
twice, in whatever order the server, the sockets and the clients go on.

* `Replica`, `Replica.Lawful`: such a value, and what the turns of a client do to it;
* `Plays`: what the steps must meet;
* `World.ledger`: the values, with the sum of what is on its way to each;
* `Sharing`, `sharing_step`: the invariant of all clients and messages;
* `LedgerStep`: what a step does to the ledger;
* `settled_run`: what is conserved in whole runs;
* `value_from_rest_to_rest`: what that is for the values.
-/

namespace HobbitSynchrony

open Transition HobbitProcessAnalyzer

namespace Multiplayer

variable {F : Type} {G : Type}

/-- A value of the game, the part of it that the others have been told, and the changes
in the payload of an event with a label. -/
structure Replica (F G : Type) where
  value : GameState UInt8 F → G
  shared : GameState UInt8 F → G
  label : DataLabel
  deltas : List UInt8 → List G

namespace Replica

/-- The message is an event with the label. -/
def IsUpdate (R : Replica F G) (msg : BaseMessage UInt8) : Prop :=
  msg.messageType = eventMessage ∧ msg.message.head? = some R.label.toByte

instance (R : Replica F G) (msg : BaseMessage UInt8) : Decidable (R.IsUpdate msg) :=
  inferInstanceAs (Decidable (_ ∧ _))

/-- The changes in a message. -/
def changes (R : Replica F G) (msg : BaseMessage UInt8) : List G :=
  if R.IsUpdate msg then R.deltas msg.message else []

/-- If the message is an event with the label, its payload has the property. -/
def Sound (R : Replica F G) (Ok : List UInt8 → Prop) (msg : BaseMessage UInt8) : Prop :=
  R.IsUpdate msg → Ok msg.message

end Replica

variable [AddCommGroup G]

/-- The change of the value by a step of the game itself. -/
def Replica.amount (R : Replica F G) (w : World F) : Action F → G
  | .play n process => R.value { (w.program n).game with process := process } -
      R.value (w.program n).game
  | _ => 0

section steps

variable [FixedWidth UInt8 F 4] [Zero F] [Add F] [Sub F] [BEq F] [LT F] [DecidableLT F]

/-- A program that keeps `Inv` goes on as it should: it handles events whose payloads
are `Ok` and, with the game at hand, `readOk`. -/
structure Replica.Lawful (R : Replica F G) (limit : ℕ) (Inv : Program F → Prop)
    (Ok : List UInt8 → Prop) (readOk : List UInt8 → GameState UInt8 F → Prop) : Prop where
  congr : ∀ {h : Program F} (h' : Program F), Inv h →
    h'.game.mainPlayer = h.game.mainPlayer → h'.game.process = h.game.process → h'.npcs = h.npcs →
      Inv h' ∧ R.value h'.game = R.value h.game ∧ R.shared h'.game = R.shared h.game
  figure : ∀ {h : Program F} (h' : Program F), Inv h → ∀ (id : UInt8) (i : Fin 7),
    h'.game = { h.game with
      process := (processPlayer id (h.npcs i) (h.game.connectedPlayers i)
        (.start h.game.process)).process } → h'.npcs = h.npcs →
      Inv h' ∧ R.value h'.game = R.value h.game ∧ R.shared h'.game = R.shared h.game
  write : ∀ {h : Program F} (h' : Program F), Inv h → Good limit h →
    h'.game = { h.game with
      mainPlayer := (MainPlayer.write h.game.process h.ptrs h.game.mainPlayer).2 } →
    h'.npcs = h.npcs →
      Inv h' ∧ R.value h'.game = R.value h.game ∧ R.shared h'.game = R.value h.game
  event : ∀ {h : Program F}, Inv h → Good limit h →
    ((MainPlayer.write h.game.process h.ptrs h.game.mainPlayer).1.flatMap R.changes).sum =
        R.value h.game - R.shared h.game ∧
      ∀ msg ∈ (MainPlayer.write h.game.process h.ptrs h.game.mainPlayer).1, R.Sound Ok msg
  read : ∀ {h h' : Program F} {msg : BaseMessage UInt8}, Inv h → Good limit h →
    h.thread.Active → Written F limit msg → msg.messageType = eventMessage →
      R.Sound Ok msg → R.Sound (readOk · h.game) msg →
      h.messageLabelStates.processLabel R.label = true → ∀ senderID,
      h'.game = gameAfter (readGameMessage h.messageLabelStates senderID
        ⟨msg.message, h.game⟩) → h'.npcs = h.npcs →
      Inv h' ∧ R.value h'.game = R.value h.game + (R.changes msg).sum ∧
        R.shared h'.game = R.shared h.game + (R.changes msg).sum

omit [AddCommGroup G] [FixedWidth UInt8 F 4] [Zero F] [Add F] [Sub F] [BEq F] [LT F]
  [DecidableLT F] in
/-- Nobody joins, leaves or enters a level, the label stays enabled, the game keeps what
is needed and does not touch what is shared, and an event is handled when it can be. -/
def Plays (R : Replica F G) (Inv : Program F → Prop)
    (readOk : List UInt8 → GameState UInt8 F → Prop) (w : World F) : Action F → Prop
  | .net a => a.Calm
  | .join _ _ _ _ | .rejoin _ _ _ | .enterNewLevel _ => False
  | .play n process =>
    Inv { w.program n with game := { (w.program n).game with process := process } } ∧
      R.shared { (w.program n).game with process := process } = R.shared (w.program n).game
  | .setLabel _ label enable => label = R.label → enable = true
  | .update n => (w.program n).thread = .events →
    R.Sound (readOk · (w.program n).game) (w.net.conn n).client.frontEventMessage
  | _ => True

/-- All programs, and all messages between them. -/
structure Sharing (R : Replica F G) (limit : ℕ) (Inv : Program F → Prop)
    (Ok : List UInt8 → Prop) (w : World F) : Prop where
  authentic : Authentic limit w
  serving : Serving w.net
  present : ∀ n < w.net.accepts, Present n w.net.clients
  carries : Carries (fun _ => R.Sound Ok) (R.Sound Ok) w.net
  messages : ∀ n < w.net.accepts, ∀ msg ∈ (w.program n).thread.messages, R.Sound Ok msg
  programs : ∀ n < w.net.accepts, Inv (w.program n)
  enabled : ∀ n < w.net.accepts, (w.program n).messageLabelStates.processLabel R.label = true

end steps

/-! ## The messages of a turn -/

section turn

variable {R : Replica F G}

omit [AddCommGroup G] in
/-- What is sent of an event has the changes, if it has the label. -/
theorem changes_sent {msg : BaseMessage UInt8} {label : DataLabel}
    (htype : 0 < msg.message.length → msg.messageType = eventMessage)
    (hhead : ∀ byte ∈ msg.message.head?, byte = label.toByte) :
    (if 0 < msg.message.length then [msg] else []).flatMap R.changes =
      if label.toByte = R.label.toByte then (sentPayload msg).toList.flatMap R.deltas else [] := by
  unfold sentPayload
  by_cases hpos : 0 < msg.message.length
  · have hbyte : msg.message.head? = some label.toByte := by
      cases hmessage : msg.message with
      | nil =>
          rw [hmessage] at hpos
          exact absurd hpos (Nat.lt_irrefl 0)
      | cons byte rest =>
          rw [hmessage] at hhead
          rw [List.head?_cons, hhead byte rfl]
    rw [if_pos hpos, if_pos hpos, List.flatMap_cons, List.flatMap_nil, List.append_nil,
      Option.toList_some, List.flatMap_cons, List.flatMap_nil, List.append_nil]
    unfold Replica.changes
    by_cases hlabel : label.toByte = R.label.toByte
    · have hupdate : R.IsUpdate msg := ⟨htype hpos, hbyte.trans (congrArg some hlabel)⟩
      rw [if_pos hupdate, if_pos hlabel]
    · have hother : ¬ R.IsUpdate msg := by
        intro hupdate
        exact hlabel (Option.some.inj (hbyte.symm.trans hupdate.2))
      rw [if_neg hother, if_neg hlabel]
  · rw [if_neg hpos, if_neg hpos]
    simp

/-- The changes of an event that is written when there are any. -/
theorem sum_eq_sub {changes : List G} {value shared : G}
    (h : changes = [value - shared] ∨ changes = [] ∧ value = shared) :
    changes.sum = value - shared := by
  rcases h with hone | ⟨hnone, hsame⟩
  · rw [hone, List.sum_singleton]
  · rw [hnone, List.sum_nil, hsame, sub_self]

variable [FixedWidth UInt8 F 4]

omit [AddCommGroup G] in
/-- An event with one block that has the label. -/
theorem isUpdate_of_block {states : LabelStates} {items : ℕ} {msg : BaseMessage UInt8}
    {label : DataLabel} (h : SingleBlock F states items label msg.message)
    (hlabel : label.toByte = R.label.toByte) (htype : msg.messageType = eventMessage) :
    R.IsUpdate msg := by
  rcases h.block with ⟨size, rest, hmessage, -⟩
  refine ⟨htype, ?_⟩
  rw [hmessage, List.head?_cons]
  exact congrArg some hlabel

omit [AddCommGroup G] in
/-- One with another label changes nothing. -/
theorem changes_of_block {states : LabelStates} {items : ℕ} {msg : BaseMessage UInt8}
    {label : DataLabel} (h : SingleBlock F states items label msg.message)
    (hlabel : label.toByte ≠ R.label.toByte) : R.changes msg = [] := by
  refine if_neg fun hupdate => ?_
  rcases h.block with ⟨size, rest, hmessage, -⟩
  have hhead := hupdate.2
  rw [hmessage] at hhead
  exact hlabel (Option.some.inj hhead)

variable [Zero F] [Sub F] [BEq F]

omit [AddCommGroup G] in
theorem head_writeEnemiesEvent (process : HobbitProcessAnalyzer UInt8) (player : MainPlayer F) :
    ∀ byte ∈ (MainPlayer.writeEnemiesEvent process player).1.message.head?,
      byte = DataLabel.enemiesHealth.toByte := by
  intro byte hbyte
  rw [MainPlayer.writeEnemiesEvent_message] at hbyte
  split at hbyte
  · cases hbyte
  · exact (Option.some.inj hbyte).symm

variable [LT F] [DecidableLT F]

omit [AddCommGroup G] in
theorem head_writeInventoryEvent (process : HobbitProcessAnalyzer UInt8) (player : MainPlayer F) :
    ∀ byte ∈ (MainPlayer.writeInventoryEvent process player).1.message.head?,
      byte = DataLabel.inventory.toByte := by
  intro byte hbyte
  rw [MainPlayer.writeInventoryEvent_message] at hbyte
  split at hbyte
  · cases hbyte
  · exact (Option.some.inj hbyte).symm

omit [AddCommGroup G] in
/-- The changes in the messages of a turn are those in the events of it. -/
theorem changes_write (process : HobbitProcessAnalyzer UInt8) (ptrs : MainPlayer.BilboPtrs)
    (player : MainPlayer F) :
    (MainPlayer.write process ptrs player).1.flatMap R.changes =
      (if DataLabel.enemiesHealth.toByte = R.label.toByte then
        (sentPayload (MainPlayer.writeEnemiesEvent process player).1).toList.flatMap R.deltas
      else []) ++
      (if DataLabel.inventory.toByte = R.label.toByte then
        (sentPayload (MainPlayer.writeInventoryEvent process
          (MainPlayer.writeEnemiesEvent process player).2).1).toList.flatMap R.deltas
      else []) := by
  have hsnap : R.changes (MainPlayer.writeSnap (MainPlayer.processData process ptrs :
      Snapshot F) : BaseMessage UInt8) = [] := if_neg fun h => by cases h.1
  unfold MainPlayer.write
  dsimp only
  rw [List.flatMap_append, List.flatMap_append, List.flatMap_cons, List.flatMap_nil, hsnap,
    List.append_nil, List.nil_append, changes_sent (messageType_writeEnemiesEvent _ _)
    (head_writeEnemiesEvent _ _), changes_sent (messageType_writeInventoryEvent _ _)
    (head_writeInventoryEvent _ _)]

omit [AddCommGroup G] in
/-- The messages of a turn are sound, if the event with the label is. -/
theorem sound_write {Ok : List UInt8 → Prop} {process : HobbitProcessAnalyzer UInt8}
    {ptrs : MainPlayer.BilboPtrs} {player : MainPlayer F}
    (henemies : DataLabel.enemiesHealth.toByte = R.label.toByte →
      ∀ payload ∈ sentPayload (MainPlayer.writeEnemiesEvent process player).1, Ok payload)
    (hinventory : DataLabel.inventory.toByte = R.label.toByte →
      ∀ payload ∈ sentPayload (MainPlayer.writeInventoryEvent process
        (MainPlayer.writeEnemiesEvent process player).2).1, Ok payload) :
    ∀ msg ∈ (MainPlayer.write process ptrs player).1, R.Sound Ok msg := by
  have hsent : ∀ {event msg : BaseMessage UInt8} {label : DataLabel},
      (∀ byte ∈ event.message.head?, byte = label.toByte) →
      (label.toByte = R.label.toByte → ∀ payload ∈ sentPayload event, Ok payload) →
      msg ∈ (if 0 < event.message.length then [event] else []) → R.Sound Ok msg := by
    intro event msg label hhead hok hmsg hupdate
    split at hmsg
    next hpos =>
      obtain rfl := List.mem_singleton.1 hmsg
      exact hok (hhead _ hupdate.2).symm _ (if_pos hpos)
    next => cases hmsg
  intro msg hmsg
  unfold MainPlayer.write at hmsg
  dsimp only at hmsg
  rw [List.mem_append, List.mem_append, List.mem_singleton] at hmsg
  rcases hmsg with (rfl | hmsg) | hmsg
  · intro hupdate
    cases hupdate.1
  · exact hsent (head_writeEnemiesEvent process player) henemies hmsg
  · exact hsent (head_writeInventoryEvent process _) hinventory hmsg

end turn

/-! ## The ledger -/

section ledger

variable (R : Replica F G) (N : ℕ)

/-- The values of the first `N` clients, with what is on its way to each of them: on the
network, in its inbox, and in the programs of the others. -/
def World.ledger (w : World F) : DeltaLedger.State (Fin N) G where
  value := fun n => R.value (w.program n).game
  shared := fun n => R.shared (w.program n).game
  toCome := fun r => w.net.coming R.changes N r +
    ((w.net.conn r).client.eventMessages.flatMap R.changes).sum +
      ∑ n ∈ Finset.range N, if n = r then 0
        else ((w.program n).thread.messages.flatMap R.changes).sum

variable {R N}

/-- A value of the programs, when one of them goes on. -/
theorem comp_program {X : Type} (f : Program F → X) (program : ℕ → Program F) (n : Fin N)
    (h : Program F) : (fun m : Fin N => f (Function.update program n h m)) =
      Function.update (fun m : Fin N => f (program m)) n (f h) := by
  funext m
  by_cases hm : m = n
  · subst hm
    rw [Function.update_self, Function.update_self]
  · rw [Function.update_of_ne hm, Function.update_of_ne fun heq => hm (Fin.ext heq)]

/-- The ledger, when the program of client `n` goes on, and what it has in its inbox and
to send. -/
theorem ledger_program {w : World F} {net : Net} (n : Fin N) (h : Program F)
    (hcoming : ∀ r, net.coming R.changes N r = w.net.coming R.changes N r)
    (hevents : ∀ r, r ≠ (n : ℕ) →
      (net.conn r).client.eventMessages = (w.net.conn r).client.eventMessages) :
    (⟨net, Function.update w.program n h⟩ : World F).ledger R N =
      { value := Function.update (w.ledger R N).value n (R.value h.game)
        shared := Function.update (w.ledger R N).shared n (R.shared h.game)
        toCome := fun r => (w.ledger R N).toCome r + if r = n then
            ((net.conn n).client.eventMessages.flatMap R.changes).sum -
              ((w.net.conn n).client.eventMessages.flatMap R.changes).sum
          else (h.thread.messages.flatMap R.changes).sum -
            ((w.program n).thread.messages.flatMap R.changes).sum } := by
  have hvalue := comp_program (fun h => R.value h.game) w.program n h
  have hshared := comp_program (fun h => R.shared h.game) w.program n h
  unfold World.ledger
  dsimp only
  rw [hvalue, hshared]
  congr 1
  funext r
  have hother : ∀ m, m ≠ (n : ℕ) → (if m = r then (0 : G)
      else ((Function.update w.program n h m).thread.messages.flatMap R.changes).sum) =
        if m = r then 0 else ((w.program m).thread.messages.flatMap R.changes).sum := by
    intro m hm
    rw [Function.update_of_ne hm]
  rw [hcoming, DeltaLedger.sum_change (Finset.mem_range.2 n.isLt) hother, Function.update_self]
  by_cases hr : r = n
  · subst hr
    rw [if_pos rfl, if_pos rfl, if_pos rfl]
    abel
  · have hne : (n : ℕ) ≠ r := fun heq => hr (Fin.ext heq.symm)
    rw [if_neg hne, if_neg hne, if_neg hr, hevents r hne.symm]
    abel

end ledger

/-! ## The steps of the update thread -/

omit [AddCommGroup G] in
/-- What is received is put behind the other events. -/
theorem events_receiveBody (R : Replica F G) (c : Client) (body : List UInt8) :
    (c.receiveBody body).eventMessages.flatMap R.changes =
      c.eventMessages.flatMap R.changes ++ bodyItems R.changes body := by
  have hnone : ∀ {msg : BaseMessage UInt8}, msg.messageType ≠ eventMessage →
      R.changes msg = [] := fun hne => if_neg fun hupdate => hne hupdate.1
  unfold Client.receiveBody bodyItems
  cases deserializeMessage body with
  | none => exact (List.append_nil _).symm
  | some msg =>
      dsimp only
      split
      next hlist =>
        rw [hnone (by rw [hlist]; decide), List.append_nil]
        rfl
      next =>
        unfold Client.sortMessageByType
        by_cases hevent : msg.messageType = eventMessage
        · have htext : msg.messageType ≠ textMessage := by
            rw [hevent]
            decide
          rw [if_neg htext, if_pos hevent, List.flatMap_append, List.flatMap_cons,
            List.flatMap_nil, List.append_nil]
        · rw [hnone hevent, List.append_nil, if_neg hevent]
          repeat' split
          all_goals rfl

section update

variable [FixedWidth UInt8 F 4] [Zero F] [Add F] [Sub F] [BEq F] [LT F] [DecidableLT F]
  {R : Replica F G} {limit : ℕ} {Inv : Program F → Prop} {Ok : List UInt8 → Prop}
  {readOk : List UInt8 → GameState UInt8 F → Prop}

omit [FixedWidth UInt8 F 4] [Zero F] [Add F] [Sub F] [BEq F] [LT F] [DecidableLT F] in
/-- A step of the update thread, as far as the value goes: nothing, an event that is
handled, or a turn that is written. -/
inductive Effect (R : Replica F G) (c : Client) (h : Program F) (c' : Client) (h' : Program F) :
    Prop where
  | kept (hvalue : R.value h'.game = R.value h.game) (hshared : R.shared h'.game = R.shared h.game)
      (hevents : c'.eventMessages = c.eventMessages)
      (hmessages : h'.thread.messages = h.thread.messages)
  | receive (d : G) (hvalue : R.value h'.game = R.value h.game + d)
      (hshared : R.shared h'.game = R.shared h.game + d)
      (hevents : (c'.eventMessages.flatMap R.changes).sum =
        (c.eventMessages.flatMap R.changes).sum - d)
      (hmessages : h'.thread.messages = h.thread.messages)
  | publish (hvalue : R.value h'.game = R.value h.game)
      (hshared : R.shared h'.game = R.value h.game)
      (hevents : c'.eventMessages = c.eventMessages)
      (hmessages : (h'.thread.messages.flatMap R.changes).sum =
        (h.thread.messages.flatMap R.changes).sum + (R.value h.game - R.shared h.game))

/-- The update thread keeps what is needed, writes sound events, and has an effect. -/
theorem update_effect (hV : R.Lawful limit Inv Ok readOk) {c c' : Client} {h h' : Program F}
    (hInv : Inv h) (hgood : Good limit h) (hinbox : InboxMeets (Written F limit) c)
    (hsound : ∀ msg ∈ c.eventMessages, R.Sound Ok msg)
    (hcopied : ∀ pair ∈ h.thread.copied, ∃ snap : Snapshot F,
      pair.2.message = (MainPlayer.writeSnap snap : BaseMessage UInt8).message)
    (henabled : h.messageLabelStates.processLabel R.label = true)
    (hread : h.thread = .events → R.Sound (readOk · h.game) c.frontEventMessage)
    (hupdate : h.update c = some (c', h')) :
    Inv h' ∧ (∀ msg ∈ h'.thread.messages, R.Sound Ok msg) ∧
      h'.messageLabelStates = h.messageLabelStates ∧ Effect R c h c' h' := by
  have hkept : ∀ {point : UpdatePoint} {c' : Client} {h' : Program F}, h.thread = point →
      point.messages = [] → h'.thread.messages = [] → h'.game = h.game → h'.npcs = h.npcs →
      h'.messageLabelStates = h.messageLabelStates → c'.eventMessages = c.eventMessages →
      Inv h' ∧ (∀ msg ∈ h'.thread.messages, R.Sound Ok msg) ∧
        h'.messageLabelStates = h.messageLabelStates ∧ Effect R c h c' h' := by
    intro point c' h' hthread hpoint hnone hgame hnpcs hlabels hevents
    rcases hV.congr _ hInv (by rw [hgame]) (by rw [hgame]) hnpcs with ⟨hInv', hvalue, hshared⟩
    refine ⟨hInv', ?_, hlabels, .kept hvalue hshared hevents ?_⟩
    · rw [hnone]
      exact List.forall_mem_nil _
    · rw [hnone, hthread, hpoint]
  have hactive : ∀ {point : UpdatePoint}, h.thread = point → point.Active → h.thread.Active :=
    fun hthread hpoint => hthread ▸ hpoint
  cases Program.update_cases hupdate with
  | ended hthread | turn hthread | text hthread | noText hthread | copy hthread
  | handled hthread | clear copy hthread | written hthread =>
      exact hkept hthread rfl rfl rfl rfl rfl rfl
  | spin hthread => exact hkept hthread rfl (by rw [hthread]; rfl) rfl rfl rfl rfl
  | throws hthread hsize hthrown =>
      -- a written event can be read
      have hwritten := (hinbox.event _ (frontEventMessage_mem hsize)).2
      have hreturned := hgood.thread_event (hactive hthread trivial) hwritten
      rw [hthrown] at hreturned
      cases hreturned
  | event hthread hsize hpos =>
      have hfront := hinbox.event _ (frontEventMessage_mem hsize)
      have hthread' := hgood.thread_event (hactive hthread trivial) hfront.2
      rcases hV.read hInv hgood (hactive hthread trivial) hfront.2 hfront.1
        (hsound _ (frontEventMessage_mem hsize)) (hread hthread) henabled
        c.frontEventMessage.senderID (Program.game_readGameMessage h _ _ .events)
        (Program.npcs_readGameMessage h _ _ .events) with ⟨hInv', hvalue, hshared⟩
      refine ⟨hInv', ?_, Program.labels_readGameMessage h _ _ _,
        .receive (R.changes c.frontEventMessage).sum hvalue hshared ?_ ?_⟩
      · rw [hthread']
        exact List.forall_mem_nil _
      · -- the front of the inbox is popped
        have hcons : c.eventMessages = c.frontEventMessage :: c.eventMessages.tail := by
          unfold Client.frontEventMessage
          cases hevents : c.eventMessages with
          | nil => simp [Client.eventMessagesSize, hevents] at hsize
          | cons msg events => rfl
        have hsum : (c.eventMessages.flatMap R.changes).sum =
            (R.changes c.frontEventMessage).sum +
              (c.eventMessages.tail.flatMap R.changes).sum := by
          rw [← List.sum_append, ← List.flatMap_cons, ← hcons]
        rw [hsum]
        exact (add_sub_cancel_left _ _).symm
      · rw [hthread', hthread]
  | handle senderID msg copy hthread =>
      rw [hthread] at hcopied
      rcases hcopied _ List.mem_cons_self with ⟨snap, hmessage⟩
      dsimp only at hmessage
      have hsnap := Program.readGameMessage_snap h senderID snap (.clear copy)
      rw [← hmessage] at hsnap
      have hgame : (h.readGameMessage senderID msg.message (.clear copy)).game.mainPlayer =
            h.game.mainPlayer ∧
          (h.readGameMessage senderID msg.message (.clear copy)).game.process = h.game.process ∧
          (h.readGameMessage senderID msg.message (.clear copy)).thread = .clear copy := by
        rw [hsnap]
        split
        · exact ⟨rfl, rfl, rfl⟩
        · exact ⟨rfl, rfl, rfl⟩
      rcases hV.congr _ hInv hgame.1 hgame.2.1 (Program.npcs_readGameMessage h _ _ _) with
        ⟨hInv', hvalue, hshared⟩
      refine ⟨hInv', ?_, Program.labels_readGameMessage h _ _ _, .kept hvalue hshared rfl ?_⟩
      · rw [hgame.2.2]
        exact List.forall_mem_nil _
      · rw [hgame.2.2, hthread]
        rfl
  | player i hi hthread =>
      rcases hV.figure { h with
        game := { h.game with
          process := (processPlayer c.clientID (h.npcs ⟨i, hi⟩)
            (h.game.connectedPlayers ⟨i, hi⟩) (.start h.game.process)).process }
        thread := .players (i + 1) } hInv c.clientID ⟨i, hi⟩ rfl rfl with
        ⟨hInv', hvalue, hshared⟩
      refine ⟨hInv', List.forall_mem_nil _, rfl, .kept hvalue hshared rfl ?_⟩
      rw [hthread]
      rfl
  | write i hthread =>
      rcases hV.write { h with
        game := { h.game with
          mainPlayer := (MainPlayer.write h.game.process h.ptrs h.game.mainPlayer).2 }
        thread := .writing (MainPlayer.write h.game.process h.ptrs h.game.mainPlayer).1
        snapshots := h.snapshots ++ [MainPlayer.processData h.game.process h.ptrs] } hInv hgood
        rfl rfl with ⟨hInv', hvalue, hshared⟩
      rcases hV.event hInv hgood with ⟨hsum, hevents⟩
      refine ⟨hInv', hevents, rfl, .publish hvalue hshared rfl ?_⟩
      rw [hthread]
      exact hsum.trans (zero_add _).symm

/-- The world when client `n` has handled the event in front of its inbox. -/
def World.handleEvent (w : World F) (n : ℕ) : World F where
  net := w.net.modify n fun conn => { conn with client := conn.client.popFrontEventMessage }
  program := Function.update w.program n ((w.program n).readGameMessage
    (w.net.conn n).client.frontEventMessage.senderID
    (w.net.conn n).client.frontEventMessage.message .events)

theorem step_event {w : World F} {n : ℕ} (hs : Honest limit w) (hn : n < w.net.accepts)
    (hthread : (w.program n).thread = .events)
    (hsize : 0 < (w.net.conn n).client.eventMessagesSize) :
    World.step w (.update n) (w.handleEvent n) ∧
      ((w.handleEvent n).program n).thread = .events := by
  have hwritten := ((hs.carries.inbox n hn).event _ (frontEventMessage_mem hsize)).2
  have hactive : (w.program n).thread.Active := hthread ▸ trivial
  have hafter := (hs.good n hn).thread_event hactive hwritten
  have hupdate : (w.program n).update (w.net.conn n).client =
      some ((w.net.conn n).client.popFrontEventMessage, (w.program n).readGameMessage
        (w.net.conn n).client.frontEventMessage.senderID
        (w.net.conn n).client.frontEventMessage.message .events) := by
    unfold Program.update
    rw [hthread]
    dsimp only
    rw [if_pos hsize, if_pos hwritten.payload, hafter]
  constructor
  · show w.update n = some _
    unfold World.update
    simp only [if_pos hn, hthread]
    rw [hupdate]
    rfl
  · unfold World.handleEvent
    dsimp only
    rw [Function.update_self, hafter]

/-! ## The steps of all parties -/

omit [FixedWidth UInt8 F 4] [Zero F] [Add F] [Sub F] [BEq F] [LT F] [DecidableLT F] in
/-- An effect is at most one step of the ledger. -/
theorem ledger_effect {N : ℕ} {w : World F} (n : Fin N) {c : Client} {h : Program F}
    (heffect : Effect R (w.net.conn n).client (w.program n) c h) :
    (⟨w.net.modify n fun conn => { conn with client := c }, Function.update w.program n h⟩ :
        World F).ledger R N = w.ledger R N ∨
      ∃ b : DeltaLedger.Action (Fin N) G, b.amount = 0 ∧
        (⟨w.net.modify n fun conn => { conn with client := c }, Function.update w.program n h⟩ :
          World F).ledger R N = DeltaLedger.step (w.ledger R N) b := by
  have hconn : ∀ m, ((w.net.modify n fun conn => { conn with client := c }).conn m).inFlight =
        (w.net.conn m).inFlight ∧
      ((w.net.modify n fun conn => { conn with client := c }).conn m).outgoing R.changes =
        (w.net.conn m).outgoing R.changes := by
    intro m
    by_cases hm : m = n
    · subst hm
      rw [Net.conn_modify, Function.update_self]
      exact ⟨rfl, rfl⟩
    · rw [Net.conn_modify, Function.update_of_ne hm]
      exact ⟨rfl, rfl⟩
  have hother : ∀ r, r ≠ (n : ℕ) →
      ((w.net.modify n fun conn => { conn with client := c }).conn r).client.eventMessages =
        (w.net.conn r).client.eventMessages := by
    intro r hr
    rw [Net.conn_modify, Function.update_of_ne hr]
  rw [ledger_program n h (fun r => coming_congr (hconn r).1 fun m => (hconn m).2) hother,
    Net.conn_modify, Function.update_self]
  cases heffect with
  | kept hvalue hshared hevents hmessages =>
      left
      rw [hvalue, hshared, hevents, hmessages, sub_self, sub_self]
      unfold World.ledger
      simp
  | receive d hvalue hshared hevents hmessages =>
      refine .inr ⟨.receive n d, rfl, ?_⟩
      rw [hvalue, hshared, hevents, hmessages, sub_self]
      unfold DeltaLedger.step
      dsimp only
      congr 1
      funext r
      by_cases hr : r = n
      · subst hr
        rw [if_pos rfl, Function.update_self]
        abel
      · rw [if_neg hr, Function.update_of_ne hr, add_zero]
  | publish hvalue hshared hevents hmessages =>
      refine .inr ⟨.publish n, rfl, ?_⟩
      rw [hvalue, hshared, hevents, hmessages, sub_self, add_sub_cancel_left]
      unfold DeltaLedger.step
      dsimp only
      congr 1
      · exact Function.update_eq_self n _
      · funext r
        by_cases hr : r = n
        · rw [if_pos hr, if_pos hr, add_zero]
        · rw [if_neg hr, if_neg hr]
          rfl

omit [AddCommGroup G] [Add F] in
/-- One program goes on, with what all programs and messages have. -/
theorem Sharing.program {w : World F} (hs : Sharing R limit Inv Ok w) {net : Net} {n : ℕ}
    {h : Program F} (authentic : Authentic limit ⟨net, Function.update w.program n h⟩)
    (serving : Serving net) (haccepts : net.accepts = w.net.accepts)
    (hclients : net.clients = w.net.clients)
    (carries : Carries (fun _ => R.Sound Ok) (R.Sound Ok) net)
    (hmessages : ∀ msg ∈ h.thread.messages, R.Sound Ok msg) (hInv : Inv h)
    (henabled : h.messageLabelStates.processLabel R.label = true) :
    Sharing R limit Inv Ok ⟨net, Function.update w.program n h⟩ where
  authentic := authentic
  serving := serving
  present := by
    rw [haccepts, hclients]
    exact hs.present
  carries := carries
  messages := by
    intro m hm
    dsimp only at hm ⊢
    by_cases hmn : m = n
    · subst hmn
      rw [Function.update_self]
      exact hmessages
    · rw [Function.update_of_ne hmn]
      exact hs.messages m (haccepts ▸ hm)
  programs := by
    intro m hm
    dsimp only at hm ⊢
    by_cases hmn : m = n
    · subst hmn
      rw [Function.update_self]
      exact hInv
    · rw [Function.update_of_ne hmn]
      exact hs.programs m (haccepts ▸ hm)
  enabled := by
    intro m hm
    dsimp only at hm ⊢
    by_cases hmn : m = n
    · subst hmn
      rw [Function.update_self]
      exact henabled
    · rw [Function.update_of_ne hmn]
      exact hs.enabled m (haccepts ▸ hm)

/-- The ledger is left alone, or takes a step with the change of the value. -/
def LedgerStep (R : Replica F G) (N : ℕ) (w : World F) (a : Action F) (w' : World F) : Prop :=
  w'.ledger R N = w.ledger R N ∧ R.amount w a = 0 ∨
    ∃ b : DeltaLedger.Action (Fin N) G, b.amount = R.amount w a ∧
      w'.ledger R N = DeltaLedger.step (w.ledger R N) b

omit [FixedWidth UInt8 F 4] [Zero F] [Add F] [Sub F] [BEq F] [LT F] [DecidableLT F] in
/-- A program goes on, with the value and the messages that it had. -/
theorem ledger_kept {N : ℕ} {w : World F} (n : Fin N) {h : Program F}
    (hvalue : R.value h.game = R.value (w.program n).game ∧
      R.shared h.game = R.shared (w.program n).game)
    (hmessages : (h.thread.messages.flatMap R.changes).sum =
      ((w.program n).thread.messages.flatMap R.changes).sum) :
    (⟨w.net, Function.update w.program n h⟩ : World F).ledger R N = w.ledger R N := by
  rw [ledger_program n h (fun _ => rfl) fun _ _ => rfl, hvalue.1, hvalue.2, hmessages, sub_self,
    sub_self]
  unfold World.ledger
  simp

omit [FixedWidth UInt8 F 4] [Zero F] [Add F] [Sub F] [BEq F] [LT F] [DecidableLT F] in
/-- A step of the network leaves the ledger alone. -/
theorem ledger_net {w : World F} {a : HobbitSynchrony.Action} {net : Net}
    (serving : Serving w.net) (present : ∀ n < w.net.accepts, Present n w.net.clients)
    (h : Step w.net a net) (hcalm : a.Calm) (hsend : ∀ n body, a ≠ .clientSend n body)
    (hheard : ∀ n < w.net.accepts, R.value (w.heard a n).game = R.value (w.program n).game ∧
      R.shared (w.heard a n).game = R.shared (w.program n).game) :
    (⟨net, w.heard a⟩ : World F).ledger R w.net.accepts = w.ledger R w.net.accepts := by
  have hthread : ∀ n, (w.heard a n).thread = (w.program n).thread := by
    intro n
    rcases World.heard_cases a w n with hsame | ⟨clientIDs, hlist⟩
    · rw [hsame]
    · rw [hlist]
      rfl
  have hgame := fun n : Fin w.net.accepts => hheard n n.isLt
  unfold World.ledger
  simp only [hgame, hthread]
  congr 1
  funext r
  congr 1
  cases comingStep (φ := R.changes) serving h hcalm (present r r.isLt) fun _ _ => rfl with
  | same ha hclient hsum => rw [hclient, hsum]
  | sent n body ha hclient hsum => exact absurd ha (hsend n body)
  | delivered frame ha hclient hsum =>
      -- from the socket into the inbox
      rw [hclient, events_receiveBody, List.sum_append, hsum]
      abel

omit [FixedWidth UInt8 F 4] [Zero F] [Add F] [Sub F] [BEq F] [LT F] [DecidableLT F] in
/-- A message that is sent goes from the program to the server. -/
theorem ledger_send {w : World F} {n : ℕ} {msg : BaseMessage UInt8}
    {messages : List (BaseMessage UInt8)} {net : Net} {senderID : UInt8}
    (serving : Serving w.net) (present : ∀ n < w.net.accepts, Present n w.net.clients)
    (hn : n < w.net.accepts) (hthread : (w.program n).thread = .writing (msg :: messages))
    (h : Step w.net (.clientSend n (serializeMessage { msg with senderID := senderID })) net) :
    (⟨net, Function.update w.program n { w.program n with thread := .writing messages }⟩ :
      World F).ledger R w.net.accepts = w.ledger R w.net.accepts := by
  have hsum : ∀ r : Fin w.net.accepts, net.coming R.changes w.net.accepts r =
      w.net.coming R.changes w.net.accepts r + (if n = r then 0 else (R.changes msg).sum) ∧
        (net.conn r).client = (w.net.conn r).client := by
    intro r
    cases comingStep (φ := R.changes) serving h trivial (present r r.isLt) fun _ _ => rfl with
    | same ha hclient hsum => exact absurd rfl (ha _ _)
    | sent m body ha hclient hsum =>
        cases ha
        rw [bodyItems_serializeMessage] at hsum
        exact ⟨hsum, hclient⟩
    | delivered frame ha hclient hsum => cases ha
  have hgame : ∀ m, (Function.update w.program n
      { w.program n with thread := .writing messages } m).game = (w.program m).game := by
    intro m
    by_cases hm : m = n
    · subst hm
      rw [Function.update_self]
    · rw [Function.update_of_ne hm]
  unfold World.ledger
  simp only [hgame]
  congr 1
  funext r
  have hother : ∀ m, m ≠ n → (if m = r then (0 : G)
      else ((Function.update w.program n { w.program n with thread := .writing messages }
        m).thread.messages.flatMap R.changes).sum) =
        if m = r then 0 else ((w.program m).thread.messages.flatMap R.changes).sum := by
    intro m hm
    rw [Function.update_of_ne hm]
  rw [(hsum r).1, (hsum r).2, DeltaLedger.sum_change (Finset.mem_range.2 hn) hother,
    Function.update_self, hthread]
  by_cases hr : n = r
  · rw [if_pos hr, if_pos hr, if_pos hr]
    abel
  · rw [if_neg hr, if_neg hr, if_neg hr]
    unfold UpdatePoint.messages
    dsimp only
    rw [List.flatMap_cons, List.sum_append]
    abel

/-- A step of any party. -/
theorem sharing_step (hV : R.Lawful limit Inv Ok readOk) (hlimit : limit ≤ 255) {w w' : World F}
    {a : Action F} (hs : Sharing R limit Inv Ok w) (h : World.step w a w')
    (hmanageable : Manageable limit w a) (hplays : Plays R Inv readOk w a) :
    Sharing R limit Inv Ok w' ∧ w'.net.accepts = w.net.accepts ∧
      LedgerStep R w.net.accepts w a w' := by
  have authentic := authentic_step hlimit hs.authentic ⟨h, hmanageable⟩
  have hfew := hs.serving.few
  have hcarries : ∀ {b : HobbitSynchrony.Action} {net : Net}, Step w.net b net →
      SendsOnly (fun _ => R.Sound Ok) b → Carries (fun _ => R.Sound Ok) (R.Sound Ok) net :=
    fun hb hsend => carries_step (fun _ _ hmsg => hmsg) hs.carries hsend hb
  cases World.step_cases h with
  | net b net hb hsend haccept =>
      rcases clients_of_calm hb hplays with ⟨hclients, haccepts⟩
      -- the listeners leave all but the slots alone
      have hheard : ∀ n, (w.heard b n).thread = (w.program n).thread ∧
          (w.heard b n).messageLabelStates = (w.program n).messageLabelStates ∧
          (Inv (w.program n) → Inv (w.heard b n) ∧
            R.value (w.heard b n).game = R.value (w.program n).game ∧
            R.shared (w.heard b n).game = R.shared (w.program n).game) := by
        intro n
        rcases World.heard_cases b w n with hsame | ⟨clientIDs, hlist⟩
        · rw [hsame]
          exact ⟨rfl, rfl, fun hInv => ⟨hInv, rfl, rfl⟩⟩
        · rw [hlist]
          exact ⟨rfl, rfl, fun hInv => hV.congr _ hInv rfl rfl rfl⟩
      refine ⟨⟨authentic, hs.serving.step hb (haccepts ▸ hfew), ?_,
        hcarries hb fun n body heq => absurd heq (hsend n body), ?_, ?_, ?_⟩, haccepts,
        .inl ⟨ledger_net hs.serving hs.present hb hplays hsend ?_, rfl⟩⟩
      · dsimp only
        rw [haccepts, hclients]
        exact hs.present
      · intro n hn
        dsimp only
        rw [(hheard n).1]
        exact hs.messages n (haccepts ▸ hn)
      · exact fun n hn => ((hheard n).2.2 (hs.programs n (haccepts ▸ hn))).1
      · intro n hn
        dsimp only
        rw [(hheard n).2.1]
        exact hs.enabled n (haccepts ▸ hn)
      · exact fun n hn => ((hheard n).2.2 (hs.programs n hn)).2
  | join | rejoin | enterNewLevel => exact hplays.elim
  | start n hn hthread =>
      rcases hV.congr { w.program n with running := true, thread := .waiting }
        (hs.programs n hn) rfl rfl rfl with ⟨hInv, hvalue⟩
      refine ⟨hs.program authentic hs.serving rfl rfl hs.carries (List.forall_mem_nil _) hInv
        (hs.enabled n hn), rfl,
        .inl ⟨ledger_kept ⟨n, hn⟩ hvalue ?_, rfl⟩⟩
      rw [hthread]
      rfl
  | play n process hn =>
      refine ⟨hs.program authentic hs.serving rfl rfl hs.carries (hs.messages n hn) hplays.1
        (hs.enabled n hn), rfl, .inr ⟨.change ⟨n, hn⟩ (R.amount w (.play n process)), rfl, ?_⟩⟩
      rw [ledger_program ⟨n, hn⟩ _ (fun _ => rfl) fun _ _ => rfl, hplays.2]
      unfold DeltaLedger.step Replica.amount World.ledger
      simp
  | exitLevel n hn =>
      rcases hV.congr { w.program n with processMessages := false }
        (hs.programs n hn) rfl rfl rfl with ⟨hInv, hvalue⟩
      exact ⟨hs.program authentic hs.serving rfl rfl hs.carries (hs.messages n hn) hInv
        (hs.enabled n hn), rfl, .inl ⟨ledger_kept ⟨n, hn⟩ hvalue rfl, rfl⟩⟩
  | setLabel n label enable hn =>
      rcases hV.congr ((w.program n).setMessageLabelProcessing label enable)
        (hs.programs n hn) rfl rfl rfl with ⟨hInv, hvalue⟩
      refine ⟨hs.program authentic hs.serving rfl rfl hs.carries (hs.messages n hn) hInv ?_, rfl,
        .inl ⟨ledger_kept ⟨n, hn⟩ hvalue rfl, rfl⟩⟩
      unfold LabelStates.processLabel Program.setMessageLabelProcessing
      dsimp only
      by_cases hlabel : label = R.label
      · rw [← hlabel, Function.update_self, hplays hlabel]
        rfl
      · rw [Function.update_of_ne fun heq => hlabel heq.symm]
        exact hs.enabled n hn
  | send n msg messages net hn hthread hb =>
      rcases clients_of_calm hb trivial with ⟨hclients, haccepts⟩
      have hmessages := hs.messages n hn
      rw [hthread] at hmessages
      have hsend : SendsOnly (fun _ => R.Sound Ok) (.clientSend n (serializeMessage
          { msg with senderID := (w.net.conn n).client.clientID })) := by
        intro m body heq sent hsent
        cases heq
        rw [deserializeMessage_serializeMessage] at hsent
        cases hsent
        exact hmessages msg List.mem_cons_self
      rcases hV.congr { w.program n with thread := .writing messages }
        (hs.programs n hn) rfl rfl rfl with ⟨hInv, -⟩
      exact ⟨hs.program authentic (hs.serving.step hb (haccepts ▸ hfew)) haccepts hclients
        (hcarries hb hsend) (fun m hm => hmessages m (List.mem_cons_of_mem _ hm)) hInv
        (hs.enabled n hn), haccepts,
        .inl ⟨ledger_send hs.serving hs.present hn hthread hb, rfl⟩⟩
  | pass n msg messages hn hthread hempty =>
      -- no empty message is written
      have hmessages := (hs.authentic.honest.good n hn).messages
      rw [hthread] at hmessages
      have hpos := (hmessages msg List.mem_cons_self).payload
      rw [hempty] at hpos
      exact absurd hpos (Nat.lt_irrefl 0)
  | update n c program hn hupdate =>
      have hinbox := hs.carries.inbox n hn
      rcases update_effect hV (hs.programs n hn) (hs.authentic.honest.good n hn)
        (hs.authentic.honest.carries.inbox n hn) (fun msg hmsg => (hinbox.event msg hmsg).2)
        (fun pair hpair => (((hs.authentic.shown n hn).copied pair hpair).imp fun _ h => h.2))
        (hs.enabled n hn) hplays hupdate with ⟨hInv, hmessages, hlabels, heffect⟩
      refine ⟨hs.program authentic (hs.serving.withClient n c) rfl rfl
        (hs.carries.withClient (Program.inboxMeets_update hinbox hupdate)) hmessages hInv ?_, rfl,
        (ledger_effect ⟨n, hn⟩ heffect).imp (fun hsame => ⟨hsame, rfl⟩) fun hb => hb⟩
      rw [hlabels]
      exact hs.enabled n hn

/-! ## Whole runs -/

/-- The changes so far, and the world that they have led to. -/
def Replica.tally (R : Replica F G) (x : Option (World F) × G) (a : Action F) :
    Option (World F) × G :=
  match x.1 with
  | some w => (w.next a, x.2 + R.amount w a)
  | none => x

/-- The changes of the value by the games themselves, in a run. -/
def Replica.played (R : Replica F G) (w : World F) (as : List (Action F)) : G :=
  (as.foldl R.tally (some w, 0)).2

theorem tally_some {x : Option (World F) × G} {w : World F} (h : x.1 = some w) (a : Action F) :
    R.tally x a = (w.next a, x.2 + R.amount w a) := by
  unfold Replica.tally
  rw [h]

theorem played_snoc {w w' : World F} {as : List (Action F)} (hrun : Run World.step w as w')
    (a : Action F) : R.played w (as ++ [a]) = R.played w as + R.amount w' a := by
  have hworld : (as.foldl R.tally (some w, 0)).1 = some w' := by
    induction hrun with
    | nil => rfl
    | snoc hrun hstep ih =>
        rw [List.foldl_append, List.foldl_cons, List.foldl_nil, tally_some ih]
        exact hstep
  unfold Replica.played
  rw [List.foldl_append, List.foldl_cons, List.foldl_nil, tally_some hworld]

/-- In whole runs nothing is lost and nothing comes twice: what every client is going to
share is what it was going to share before, with all changes since. -/
theorem settled_run (hV : R.Lawful limit Inv Ok readOk) (hlimit : limit ≤ 255) {w w' : World F}
    {as : List (Action F)} (hs : Sharing R limit Inv Ok w)
    (hrun : Run (Guarded World.step fun w a => Manageable limit w a ∧ Plays R Inv readOk w a)
      w as w') :
    Sharing R limit Inv Ok w' ∧ w'.net.accepts = w.net.accepts ∧ ∀ k,
      (w'.ledger R w.net.accepts).settled k =
        (w.ledger R w.net.accepts).settled k + R.played w as := by
  induction hrun with
  | nil => exact ⟨hs, rfl, fun k => (add_zero _).symm⟩
  | snoc hrun hstep ih =>
      rcases ih with ⟨hsharing, haccepts, hsettled⟩
      rcases hstep with ⟨hstep, hmanageable, hplays⟩
      rcases sharing_step hV hlimit hsharing hstep hmanageable hplays with
        ⟨hsharing', haccepts', hledger⟩
      rw [haccepts] at hledger
      refine ⟨hsharing', haccepts'.trans haccepts, fun k => ?_⟩
      rw [played_snoc (hrun.mono fun _ _ _ h => h.1)]
      rcases hledger with ⟨hsame, hnone⟩ | ⟨b, hamount, hb⟩
      · rw [hsame, hsettled, hnone, add_zero]
      · rw [hb, DeltaLedger.settled_step, hsettled, hamount, add_assoc]

/-! ## At rest -/

omit [AddCommGroup G] [FixedWidth UInt8 F 4] [Zero F] [Add F] [Sub F] [BEq F] [LT F]
  [DecidableLT F] in
/-- The message, if it is an event with the label. -/
def Replica.updates (R : Replica F G) (msg : BaseMessage UInt8) : List (BaseMessage UInt8) :=
  if R.IsUpdate msg then [msg] else []

/-- The events with the label that are on their way from or to client `n`, or are still
to be sent or handled by it. -/
def World.updates (R : Replica F G) (w : World F) (n : ℕ) : List (BaseMessage UInt8) :=
  ((w.net.conn n).inFlight.flatMap fun frame => bodyItems R.updates frame.body) ++
    (w.net.conn n).outgoing R.updates ++ (w.net.conn n).client.eventMessages.flatMap R.updates ++
      (w.program n).thread.messages.flatMap R.updates

/-- Every client has shared its value, and no event with the label is anywhere. -/
structure AtRest (R : Replica F G) (w : World F) : Prop where
  shared : ∀ n < w.net.accepts, R.shared (w.program n).game = R.value (w.program n).game
  updates : ∀ n < w.net.accepts, w.updates R n = []

/-- Fewer than 256 connections have been accepted and none is lost, every program keeps
`Inv`, and all is at rest. -/
structure Ready (R : Replica F G) (Inv : Program F → Prop) (w : World F) : Prop where
  few : w.net.accepts < 256
  present : ∀ n < w.net.accepts, Present n w.net.clients
  programs : ∀ n < w.net.accepts, Inv (w.program n)
  enabled : ∀ n < w.net.accepts, (w.program n).messageLabelStates.processLabel R.label = true
  rest : AtRest R w

section rest

omit [AddCommGroup G] [FixedWidth UInt8 F 4] [Zero F] [Add F] [Sub F] [BEq F] [LT F]
  [DecidableLT F]

theorem not_isUpdate {msg : BaseMessage UInt8} (h : R.updates msg = []) : ¬ R.IsUpdate msg := by
  intro hupdate
  unfold Replica.updates at h
  rw [if_pos hupdate] at h
  cases h

theorem changes_of_updates {msg : BaseMessage UInt8} (h : R.updates msg = []) :
    R.changes msg = [] := if_neg (not_isUpdate h)

theorem sound_of_updates {msg : BaseMessage UInt8} (h : R.updates msg = []) : R.Sound Ok msg :=
  fun hupdate => absurd hupdate (not_isUpdate h)

/-- Without events there are no changes. -/
theorem flatMap_changes {msgs : List (BaseMessage UInt8)} (h : msgs.flatMap R.updates = []) :
    msgs.flatMap R.changes = [] := by
  rw [List.flatMap_eq_nil_iff] at h ⊢
  exact fun msg hmsg => changes_of_updates (h msg hmsg)

theorem bodyItems_updates {body : List UInt8} (h : bodyItems R.updates body = [])
    {msg : BaseMessage UInt8} (hmsg : deserializeMessage body = some msg) :
    R.updates msg = [] := by
  unfold bodyItems at h
  rwa [hmsg] at h

theorem bodyItems_changes {body : List UInt8} (h : bodyItems R.updates body = []) :
    bodyItems R.changes body = [] := by
  unfold bodyItems at h ⊢
  split
  next msg hmsg =>
    rw [hmsg] at h
    exact changes_of_updates h
  next => rfl

variable {w : World F} {n : ℕ}

theorem updates_eq_nil (h : w.updates R n = []) :
    ((∀ frame ∈ (w.net.conn n).inFlight, bodyItems R.updates frame.body = []) ∧
      (w.net.conn n).handler.message.flatMap R.updates = [] ∧
      ∀ body ∈ (w.net.conn n).unread, bodyItems R.updates body = []) ∧
    (w.net.conn n).client.eventMessages.flatMap R.updates = [] ∧
      (w.program n).thread.messages.flatMap R.updates = [] := by
  unfold World.updates Connection.outgoing at h
  simp only [List.append_eq_nil_iff] at h
  rcases h with ⟨⟨⟨hflight, hhandler, hunread⟩, hevents⟩, hmessages⟩
  exact ⟨⟨List.flatMap_eq_nil_iff.1 hflight, hhandler, List.flatMap_eq_nil_iff.1 hunread⟩,
    hevents, hmessages⟩

end rest

omit [AddCommGroup G] [Add F] in
/-- When all is at rest, all messages are sound. -/
theorem Ready.sharing {w : World F} (h : Ready R Inv w) (authentic : Authentic limit w)
    (serving : Serving w.net) : Sharing R limit Inv Ok w where
  authentic := authentic
  serving := serving
  present := h.present
  programs := h.programs
  enabled := h.enabled
  messages := by
    intro n hn msg hmsg
    have hmessages := (updates_eq_nil (h.rest.updates n hn)).2.2
    exact sound_of_updates (List.flatMap_eq_nil_iff.1 hmessages msg hmsg)
  carries := by
    have hhonest := authentic.honest.carries
    refine ⟨?_, ?_, ?_, ?_⟩
    · -- only accepted clients have sent anything
      intro n body hbody msg hmsg
      have hn := (authentic.carries.unread n body hbody msg hmsg).1
      have hunread := (updates_eq_nil (h.rest.updates n hn)).1.2.2
      exact sound_of_updates (bodyItems_updates (hunread body hbody) hmsg)
    · intro n msg hhandler
      have hn : n < w.net.accepts := serving.wellFormed.lt_accepts (by rw [hhandler]; simp)
      have hmessage := (updates_eq_nil (h.rest.updates n hn)).1.2.1
      rw [hhandler] at hmessage
      exact sound_of_updates (List.flatMap_eq_nil_iff.1 hmessage msg List.mem_cons_self)
    · intro n hn frame hframe msg hmsg
      have hflight := (updates_eq_nil (h.rest.updates n hn)).1.1
      exact .inr (sound_of_updates (bodyItems_updates (hflight frame hframe) hmsg))
    · intro n hn
      have hevents := (updates_eq_nil (h.rest.updates n hn)).2.1
      refine ⟨?_, ?_, ?_⟩
      · intro msg hmsg
        have htype := ((hhonest.inbox n hn).text msg hmsg).1
        exact ⟨htype, fun hupdate => by cases htype.symm.trans hupdate.1⟩
      · intro msg hmsg
        exact ⟨((hhonest.inbox n hn).event msg hmsg).1,
          sound_of_updates (List.flatMap_eq_nil_iff.1 hevents msg hmsg)⟩
      · intro id msg hmsg
        rcases (hhonest.inbox n hn).snapshot id msg hmsg with ⟨htype, hid, -⟩
        exact ⟨htype, hid, fun hupdate => by cases htype.symm.trans hupdate.1⟩

omit [FixedWidth UInt8 F 4] [Zero F] [Add F] [Sub F] [BEq F] [LT F] [DecidableLT F] in
/-- When all is at rest, nothing is to come to any client. -/
theorem AtRest.toCome {w : World F} (h : AtRest R w) (k : Fin w.net.accepts) :
    (w.ledger R w.net.accepts).toCome k = 0 := by
  have hk := updates_eq_nil (h.updates k k.isLt)
  have hflight : (w.net.conn k).inFlight.flatMap
      (fun frame => bodyItems R.changes frame.body) = [] :=
    List.flatMap_eq_nil_iff.2 fun frame hframe => bodyItems_changes (hk.1.1 frame hframe)
  have houtgoing : ∀ n ∈ Finset.range w.net.accepts,
      (if n = k then (0 : G) else ((w.net.conn n).outgoing R.changes).sum) = 0 := by
    intro n hn
    have hrest := (updates_eq_nil (h.updates n (Finset.mem_range.1 hn))).1.2
    have hunread : (w.net.conn n).unread.flatMap (bodyItems R.changes) = [] :=
      List.flatMap_eq_nil_iff.2 fun body hbody => bodyItems_changes (hrest.2 body hbody)
    unfold Connection.outgoing
    rw [flatMap_changes hrest.1, hunread, List.append_nil, List.sum_nil, ite_self]
  have hmessages : ∀ n ∈ Finset.range w.net.accepts,
      (if n = k then (0 : G) else ((w.program n).thread.messages.flatMap R.changes).sum) = 0 := by
    intro n hn
    have hrest := (updates_eq_nil (h.updates n (Finset.mem_range.1 hn))).2.2
    rw [flatMap_changes hrest, List.sum_nil, ite_self]
  unfold World.ledger Net.coming
  dsimp only
  rw [hflight, flatMap_changes hk.2.1, Finset.sum_eq_zero houtgoing, Finset.sum_eq_zero hmessages,
    List.sum_nil]
  abel

omit [FixedWidth UInt8 F 4] [Zero F] [Add F] [Sub F] [BEq F] [LT F] [DecidableLT F] in
/-- At rest a client has what is settled. -/
theorem AtRest.value {w : World F} (h : AtRest R w) {N : ℕ} (hN : w.net.accepts = N)
    (k : Fin N) : R.value (w.program k).game = (w.ledger R N).settled k := by
  subst hN
  exact DeltaLedger.value_at_rest (fun j : Fin w.net.accepts => h.shared j j.isLt) (h.toCome k)

omit [AddCommGroup G] [Sub F] [BEq F] in
/-- The other clients have what they had. -/
theorem updates_handleEvent {w : World F} {n m : ℕ} (hm : m ≠ n) :
    (w.handleEvent n).updates R m = w.updates R m := by
  unfold World.updates World.handleEvent
  dsimp only
  rw [Net.conn_modify, Function.update_of_ne hm, Function.update_of_ne hm]

/-- When the last event with the label has been handled, all is at rest. -/
theorem Sharing.rest_handleEvent (hV : R.Lawful limit Inv Ok readOk) {w : World F}
    (hs : Sharing R limit Inv Ok w) {n : ℕ} (hn : n < w.net.accepts)
    (hthread : (w.program n).thread = .events)
    (hsize : 0 < (w.net.conn n).client.eventMessagesSize)
    (hread : R.Sound (readOk · (w.program n).game) (w.net.conn n).client.frontEventMessage)
    (hshared : ∀ m < w.net.accepts, R.shared (w.program m).game = R.value (w.program m).game)
    (hother : ∀ m < w.net.accepts, m ≠ n → w.updates R m = [])
    (hflight : (w.net.conn n).inFlight = []) (houtgoing : (w.net.conn n).outgoing R.updates = [])
    (hlast : (w.net.conn n).client.eventMessages.tail = []) : AtRest R (w.handleEvent n) := by
  have hgood := hs.authentic.honest.good n hn
  have hfront := (hs.authentic.honest.carries.inbox n hn).event _ (frontEventMessage_mem hsize)
  have hsound := ((hs.carries.inbox n hn).event _ (frontEventMessage_mem hsize)).2
  have hvalue := hV.read (hs.programs n hn) hgood (hthread ▸ trivial) hfront.2 hfront.1 hsound
    hread (hs.enabled n hn) (w.net.conn n).client.frontEventMessage.senderID
    (Program.game_readGameMessage (w.program n) _ _ .events)
    (Program.npcs_readGameMessage (w.program n) _ _ .events)
  have hafter := (step_event hs.authentic.honest hn hthread hsize).2
  constructor
  · intro m hm
    unfold World.handleEvent
    dsimp only
    by_cases hmn : m = n
    · subst hmn
      rw [Function.update_self, hvalue.2.1, hvalue.2.2, hshared m hm]
    · rw [Function.update_of_ne hmn]
      exact hshared m hm
  · intro m hm
    by_cases hmn : m = n
    · subst hmn
      have hconn : (w.handleEvent m).net.conn m = { w.net.conn m with
          client := (w.net.conn m).client.popFrontEventMessage } := by
        unfold World.handleEvent
        dsimp only
        rw [Net.conn_modify, Function.update_self]
      have hevents : ((w.net.conn m).client.popFrontEventMessage).eventMessages = [] := hlast
      have hsame : ({ w.net.conn m with client := (w.net.conn m).client.popFrontEventMessage } :
          Connection).outgoing R.updates = (w.net.conn m).outgoing R.updates := rfl
      unfold World.updates
      rw [hafter, hconn, hsame, houtgoing]
      dsimp only
      rw [hflight, hevents]
      rfl
    · exact (updates_handleEvent hmn).trans (hother m hm hmn)

omit [AddCommGroup G] in
/-- A world that is ready after a run shares its values. -/
theorem sharing_of_run (hlimit : limit ≤ 255) {program : Program F} {as : List (Action F)}
    {w : World F}
    (hstart : Run (Guarded World.step (Manageable limit)) (World.start program) as w)
    (hready : Ready R Inv w) : Sharing R limit Inv Ok w :=
  hready.sharing
    (hstart.invariant (fun _ _ _ hstep hs => authentic_step hlimit hs hstep)
      (authentic_start limit program))
    (serving_run (hstart.mono fun _ _ _ h => h.1) hready.few)

/-- A run from one rest ends at another one, if its last step handles the last event with
the label. -/
theorem rest_of_last_event (hV : R.Lawful limit Inv Ok readOk) (hlimit : limit ≤ 255)
    {program : Program F} {as as' : List (Action F)} {w w' : World F}
    (hstart : Run (Guarded World.step (Manageable limit)) (World.start program) as w)
    (hready : Ready R Inv w)
    (hrun : Run (Guarded World.step fun w a => Manageable limit w a ∧ Plays R Inv readOk w a)
      w as' w') {n : ℕ} (hn : n < w'.net.accepts) (hthread : (w'.program n).thread = .events)
    (hsize : 0 < (w'.net.conn n).client.eventMessagesSize)
    (hread : R.Sound (readOk · (w'.program n).game) (w'.net.conn n).client.frontEventMessage)
    (hshared : ∀ m < w'.net.accepts, R.shared (w'.program m).game = R.value (w'.program m).game)
    (hother : ∀ m < w'.net.accepts, m ≠ n → w'.updates R m = [])
    (hflight : (w'.net.conn n).inFlight = []) (houtgoing : (w'.net.conn n).outgoing R.updates = [])
    (hlast : (w'.net.conn n).client.eventMessages.tail = []) :
    Run (Guarded World.step fun w a => Manageable limit w a ∧ Plays R Inv readOk w a)
      w (as' ++ [.update n]) (w'.handleEvent n) ∧ AtRest R (w'.handleEvent n) := by
  have hsharing := (settled_run hV hlimit (sharing_of_run hlimit hstart hready) hrun).1
  have hstep := (step_event hsharing.authentic.honest hn hthread hsize).1
  refine ⟨hrun.snoc ⟨hstep, trivial, fun _ => hread⟩, ?_⟩
  exact hsharing.rest_handleEvent hV hn hthread hsize hread hshared hother hflight houtgoing hlast

/-- From one rest to another, the value of every client changes by what all games have
changed it by. -/
theorem value_from_rest_to_rest (hV : R.Lawful limit Inv Ok readOk) (hlimit : limit ≤ 255)
    {program : Program F} {as as' : List (Action F)} {w w' : World F}
    (hstart : Run (Guarded World.step (Manageable limit)) (World.start program) as w)
    (hready : Ready R Inv w)
    (hrun : Run (Guarded World.step fun w a => Manageable limit w a ∧ Plays R Inv readOk w a)
      w as' w') (hrest : AtRest R w') :
    ∀ n < w'.net.accepts, R.value (w'.program n).game =
      R.value (w.program n).game + R.played w as' := by
  rcases settled_run hV hlimit (sharing_of_run hlimit hstart hready) hrun with
    ⟨-, haccepts, hsettled⟩
  intro n hn
  rw [haccepts] at hn
  have hvalue := hready.rest.value rfl ⟨n, hn⟩
  have hvalue' := hrest.value haccepts ⟨n, hn⟩
  exact hvalue'.trans ((hsettled ⟨n, hn⟩).trans (congrArg (· + R.played w as') hvalue.symm))

end update

end Multiplayer

end HobbitSynchrony
