import HobbitSynchrony.GenuineSnapshots
import HobbitSynchrony.Lib.LatestValue
import HobbitSynchrony.MessageStreams
import HobbitSynchrony.RosterParser

/-! # The mailbox of the snapshots

While nobody joins or leaves, the snapshots of a client come to another one through a
mailbox that keeps the latest: the entry of its sender in `snapshotMessages`. The
receiver's `readMessage` copies the entries, handles the copies and clears the inbox.

* `World.mailbox`: the way from one client's program to the other's slot;
* `Attentive`: what the receiver's steps must meet;
* `Connected`: what is known of the two clients;
* `reader_step`, `writer_step`, `net_step`: the steps of the two and of the network;
* `mailbox_step`: every step is at most two of the mailbox.
-/

namespace HobbitSynchrony

open Transition HobbitProcessAnalyzer

namespace Multiplayer

variable {F : Type}

/-- The payload of a message that is a snapshot. -/
def snapPayload (msg : BaseMessage UInt8) : List (List UInt8) :=
  if msg.messageType = snapshotMessage then [msg.message] else []

/-- The update thread is between the copy of the snapshots and the last clear. -/
def UpdatePoint.Going : UpdatePoint → Bool
  | .handle (_ :: _) | .clear _ => true
  | _ => false

/-- The snapshot that the update thread handles next. -/
def UpdatePoint.next : UpdatePoint → Option (UInt8 × BaseMessage UInt8)
  | .handle (pair :: _) => some pair
  | _ => none

/-- Nobody joins, leaves, or is connected anew. -/
def Action.Calm : Action F → Prop
  | .net a => a.Calm
  | .join _ _ _ _ | .rejoin _ _ _ => False
  | _ => True

/-- Client `r` receives nothing between a copy and its last clear, its label of the
snapshots is left alone, and every player whose snapshot it handles has a slot. -/
def Attentive (r : ℕ) (w : World F) : Action F → Prop
  | .net (.deliver m) => m = r → (w.program r).thread.Going = false
  | .setLabel m label _ => m = r → label ≠ .connectedPlayerSnap
  | .update m => m = r → ∀ pair ∈ (w.program r).thread.next,
      ∃ i, ((w.program r).game.connectedPlayers i).id = pair.1.toNat
  | _ => True

instance (a : Action F) : Decidable a.Calm :=
  match a with
  | .net a => inferInstanceAs (Decidable a.Calm)
  | .join _ _ _ _ | .rejoin _ _ _ => instDecidableFalse
  | .start _ | .play _ _ | .enterNewLevel _ | .exitLevel _ | .setLabel _ _ _ | .update _ =>
    instDecidableTrue

instance (r : ℕ) (w : World F) (a : Action F) : Decidable (Attentive r w a) :=
  match a with
  | .net a => match a with
    | .deliver m => inferInstanceAs (Decidable (m = r → (w.program r).thread.Going = false))
    | .clientSend _ _ | .accept _ _ _ | .sendID | .acceptNotify | .spawn | .read _
    | .broadcast _ | .hangup _ | .remove _ | .exitNotify _ | .lose _ => instDecidableTrue
  | .setLabel m label _ => inferInstanceAs (Decidable (m = r → label ≠ .connectedPlayerSnap))
  | .update m =>
    have : Decidable (∀ pair ∈ (w.program r).thread.next,
        ∃ i, ((w.program r).game.connectedPlayers i).id = pair.1.toNat) :=
      @Option.decidableForallMem _ _ (fun _ => Nat.decidableExistsFin _) (w.program r).thread.next
    inferInstanceAs (Decidable (m = r → ∀ pair ∈ (w.program r).thread.next,
      ∃ i, ((w.program r).game.connectedPlayers i).id = pair.1.toNat))
  | .join _ _ _ _ | .rejoin _ _ _ | .start _ | .play _ _ | .enterNewLevel _ | .exitLevel _ =>
    instDecidableTrue

section mailbox

variable [FixedWidth UInt8 F 4]

/-- The bytes of a snapshot, in its message. -/
def payload (snap : Snapshot F) : List UInt8 :=
  (MainPlayer.writeSnap snap : BaseMessage UInt8).message

omit [FixedWidth UInt8 F 4] in
theorem snapshot_putSnapshot (g : GameState UInt8 F) (slot : Fin 7) (snap : Snapshot F) :
    ((g.putSnapshot slot snap).connectedPlayers slot).snapshot = snap := by
  simp [GameState.putSnapshot, ConnectedPlayer.withSnapshot, ConnectedPlayer.snapshot]

/-- Two snapshots with the same bytes are equal: any slot that gets the bytes gets
the snapshot. -/
theorem payload_injective (g : GameState UInt8 F) {snap snap' : Snapshot F}
    (h : payload snap = payload snap') : snap = snap' := by
  unfold payload at h
  rw [MainPlayer.writeSnap_message, MainPlayer.writeSnap_message] at h
  have hbytes : (MainPlayer.snapBytes snap : List UInt8) = MainPlayer.snapBytes snap' :=
    List.tail_eq_of_cons_eq (List.tail_eq_of_cons_eq h)
  have hread := readConectedPlayerSnap_snapBytes (0 : Fin 7) snap g
  rw [hbytes, readConectedPlayerSnap_snapBytes] at hread
  have hgame : g.putSnapshot 0 snap' = g.putSnapshot 0 snap := by
    injection hread with _ hstate
    injection hstate
  rw [← snapshot_putSnapshot g 0 snap, ← hgame, snapshot_putSnapshot]

/-- The snapshots of sender `senderID` that are copied, by their payloads. -/
def copiedOf (senderID : UInt8) (thread : UpdatePoint) : List (List UInt8) :=
  (thread.copied.filter fun pair => pair.1 = senderID).map fun pair => pair.2.message

/-- The snapshots on their way from the program of client `n` to slot `j` of client `r`. -/
def World.mailbox (n r : ℕ) (j : Fin 7) (w : World F) : LatestValue.State (List UInt8) where
  shown := payload ((w.program r).game.connectedPlayers j).snapshot
  copied := copiedOf (w.net.conn n).clientHandler.clientID (w.program r).thread
  box := ((w.net.conn r).client.snapshotMessages
    (w.net.conn n).clientHandler.clientID).map BaseMessage.message
  queue := w.net.onTheWay snapPayload n r ++ (w.program n).thread.messages.flatMap snapPayload
  busy := (w.program r).thread.Going
  written := (w.program n).snapshots.map payload

/-- What the mailbox depends on. -/
theorem mailbox_congr {w w' : World F} {n r : ℕ} {j : Fin 7}
    (hid : (w'.net.conn n).clientHandler = (w.net.conn n).clientHandler)
    (hshown : ((w'.program r).game.connectedPlayers j).snapshot =
      ((w.program r).game.connectedPlayers j).snapshot)
    (hthread : (w'.program r).thread.copied = (w.program r).thread.copied ∧
      (w'.program r).thread.Going = (w.program r).thread.Going)
    (hbox : (w'.net.conn r).client.snapshotMessages = (w.net.conn r).client.snapshotMessages)
    (hway : w'.net.onTheWay snapPayload n r = w.net.onTheWay snapPayload n r)
    (hmessages : (w'.program n).thread.messages = (w.program n).thread.messages)
    (hwritten : (w'.program n).snapshots = (w.program n).snapshots) :
    w'.mailbox n r j = w.mailbox n r j := by
  unfold World.mailbox copiedOf
  rw [hid, hshown, hthread.1, hthread.2, hbox, hway, hmessages, hwritten]

/-! ## What the steps do to its parts -/

omit [FixedWidth UInt8 F 4] in
/-- The copy of the inbox has the entry of every sender once. -/
theorem copiedOf_snapMessage (c : Client) (senderID : UInt8) :
    copiedOf senderID (.handle c.snapMessage) =
      ((c.snapshotMessages senderID).map BaseMessage.message).toList := by
  -- of all IDs, only the sender's is left
  have hfilter : ∀ ids : List UInt8,
      (ids.filterMap fun id => (c.snapshotMessages id).map fun msg => (id, msg)).filter
          (fun pair => pair.1 = senderID) =
        (ids.filter fun id => id = senderID).filterMap
          fun id => (c.snapshotMessages id).map fun msg => (id, msg) := by
    intro ids
    induction ids with
    | nil => rfl
    | cons id ids ih =>
        rw [List.filter_cons, List.filterMap_cons]
        by_cases heq : id = senderID
        · subst heq
          cases hid : c.snapshotMessages id with
          | none => simp [hid, ih]
          | some msg => simp [hid, ih]
        · cases hid : c.snapshotMessages id with
          | none => simp [heq, ih]
          | some msg => simp [heq, ih]
  have hids : ((List.range 256).map UInt8.ofNat).filter (fun id => id = senderID) =
      [senderID] := by
    have hall := Client.pairwise_lt_clientIDs fun _ => true
    rw [List.filter_true] at hall
    have hmem : senderID ∈ (List.range 256).map UInt8.ofNat :=
      List.mem_map.2 ⟨senderID.toNat, List.mem_range.2 senderID.toNat_lt, UInt8.ofNat_toNat⟩
    have hcount := List.count_eq_one_of_mem (hall.imp UInt8.ne_of_lt) hmem
    rw [List.filter_eq, hcount]
    rfl
  unfold copiedOf UpdatePoint.copied Client.snapMessage
  dsimp only
  rw [hfilter, hids]
  cases hsnap : c.snapshotMessages senderID with
  | none => simp [hsnap]
  | some msg => simp [hsnap]

theorem snapPayload_write [Zero F] [Sub F] [BEq F] [LT F] [DecidableLT F]
    (process : HobbitProcessAnalyzer UInt8) (ptrs : MainPlayer.BilboPtrs) (player : MainPlayer F) :
    (MainPlayer.write process ptrs player).1.flatMap snapPayload =
      [payload (MainPlayer.processData process ptrs : Snapshot F)] := by
  have hevent : ∀ msg : BaseMessage UInt8,
      (0 < msg.message.length → msg.messageType = eventMessage) →
      (if 0 < msg.message.length then [msg] else []).flatMap snapPayload = [] := by
    intro msg htype
    split
    next hpos =>
      rw [List.flatMap_cons, List.flatMap_nil, List.append_nil, snapPayload, htype hpos]
      rfl
    next => exact List.flatMap_nil
  unfold MainPlayer.write
  dsimp only
  rw [List.flatMap_append, List.flatMap_append, hevent _ (messageType_writeEnemiesEvent _ _),
    hevent _ (messageType_writeInventoryEvent _ _)]
  rfl

omit [FixedWidth UInt8 F 4] in
/-- Only a snapshot changes the snapshots of a client. -/
theorem snapshotMessages_sortMessageByType (msg : BaseMessage UInt8) (c : Client) :
    (c.sortMessageByType msg).snapshotMessages =
      if msg.messageType = snapshotMessage then
        Function.update c.snapshotMessages msg.senderID (some msg)
      else c.snapshotMessages := by
  unfold Client.sortMessageByType
  by_cases hsnap : msg.messageType = snapshotMessage
  · simp [hsnap, textMessage, eventMessage, snapshotMessage]
  · rw [if_neg hsnap, if_neg hsnap]
    repeat' split
    all_goals rfl

omit [FixedWidth UInt8 F 4] in
/-- What a received body does to the entry of a sender. -/
theorem box_receiveBody {body : List UInt8} (hbody : BodyMeets (fun msg => ¬ IsControl msg) body)
    (c : Client) (senderID : UInt8) :
    bodyItems (senderItems snapPayload senderID) body = [] ∧
        (c.receiveBody body).snapshotMessages senderID = c.snapshotMessages senderID ∨
      ∃ x, bodyItems (senderItems snapPayload senderID) body = [x] ∧
        ((c.receiveBody body).snapshotMessages senderID).map BaseMessage.message = some x := by
  unfold bodyItems Client.receiveBody
  cases hmsg : deserializeMessage body with
  | none => exact .inl ⟨rfl, rfl⟩
  | some msg =>
      have hcontrol : ¬ (msg.messageType = clientListMessage ∨ msg.messageType = clientIDMessage) :=
        hbody msg hmsg
      rw [not_or] at hcontrol
      dsimp only
      rw [if_neg hcontrol.1, snapshotMessages_sortMessageByType]
      unfold senderItems snapPayload
      by_cases hsnap : msg.messageType = snapshotMessage
      · rw [if_pos hsnap, if_pos hsnap]
        by_cases hid : msg.senderID = senderID
        · subst hid
          refine .inr ⟨msg.message, if_pos rfl, ?_⟩
          rw [Function.update_self]
          rfl
        · exact .inl ⟨if_neg hid, Function.update_of_ne (fun heq => hid heq.symm) _ _⟩
      · rw [if_neg hsnap, if_neg hsnap, ite_self]
        exact .inl ⟨rfl, rfl⟩

/-! ## The reader -/

/-- The mailbox, when the receiver's program goes on. -/
theorem mailbox_reader {w : World F} {n r : ℕ} {j : Fin 7} (hnr : n ≠ r) (c : Client)
    (h : Program F) :
    (⟨w.net.modify r fun conn => { conn with client := c }, Function.update w.program r h⟩ :
      World F).mailbox n r j =
      { w.mailbox n r j with
        shown := payload (h.game.connectedPlayers j).snapshot
        copied := copiedOf (w.net.conn n).clientHandler.clientID h.thread
        box := (c.snapshotMessages (w.net.conn n).clientHandler.clientID).map BaseMessage.message
        busy := h.thread.Going } := by
  unfold World.mailbox
  dsimp only
  rw [w.net.clientHandler_modify rfl n, Function.update_self, Function.update_of_ne hnr]
  have hway : (w.net.modify r fun conn => { conn with client := c }).onTheWay snapPayload n r =
      w.net.onTheWay snapPayload n r := by
    refine onTheWay_congr ?_ (w.net.clientHandler_modify rfl n) ?_
    · rw [Net.conn_modify, Function.update_self]
    · rw [Net.conn_modify, Function.update_of_ne hnr]
  rw [hway, Net.conn_modify, Function.update_self]

/-- The mailbox, when the writer's program goes on. -/
theorem mailbox_writer {w : World F} {n r : ℕ} {j : Fin 7} (hnr : n ≠ r) (c : Client)
    (h : Program F) :
    (⟨w.net.modify n fun conn => { conn with client := c }, Function.update w.program n h⟩ :
      World F).mailbox n r j =
      { w.mailbox n r j with
        queue := w.net.onTheWay snapPayload n r ++ h.thread.messages.flatMap snapPayload
        written := h.snapshots.map payload } := by
  unfold World.mailbox
  dsimp only
  rw [w.net.clientHandler_modify rfl n, Function.update_self, Function.update_of_ne hnr.symm]
  have hway : (w.net.modify n fun conn => { conn with client := c }).onTheWay snapPayload n r =
      w.net.onTheWay snapPayload n r := by
    refine onTheWay_congr ?_ (w.net.clientHandler_modify rfl n) ?_
    · rw [Net.conn_modify, Function.update_of_ne hnr.symm]
    · rw [Net.conn_modify, Function.update_self]
      rfl
  rw [hway, Net.conn_modify, Function.update_of_ne hnr.symm]

variable [Zero F] [Add F] [Sub F] [BEq F] [LT F] [DecidableLT F]

/-- Clients `n` and `r` while they stay: what is known of all programs, and that the
player of `n` has slot `j` of `r`, whose label of the snapshots is enabled. -/
structure Connected (limit n r : ℕ) (j : Fin 7) (w : World F) : Prop where
  authentic : Authentic limit w
  serving : Serving w.net
  sender : n < w.net.accepts
  receiver : Present r w.net.clients
  quiet : w.net.Quiet r
  slot : slotOf (w.program r).game (w.net.conn n).clientHandler.clientID = j
  seated : ((w.program r).game.connectedPlayers j).id =
    (w.net.conn n).clientHandler.clientID.toNat
  enabled : (w.program r).messageLabelStates.processLabel .connectedPlayerSnap = true

omit [FixedWidth UInt8 F 4] [Zero F] [Add F] [Sub F] [BEq F] [LT F] [DecidableLT F] in
/-- A mailbox that is left alone. -/
theorem run_same {X : Type} {s s' : LatestValue.State X} (h : s' = s) :
    ∃ as, Run (Guarded (ofFn LatestValue.step) LatestValue.Undisturbed) s as s' := by
  subst h
  exact ⟨[], Run.nil⟩

omit [FixedWidth UInt8 F 4] [Zero F] [Add F] [Sub F] [BEq F] [LT F] [DecidableLT F] in
/-- One step of the mailbox. -/
theorem run_one {X : Type} {s s' : LatestValue.State X} {a : LatestValue.Action X}
    (h : LatestValue.step s a = some s') (hundisturbed : LatestValue.Undisturbed s a) :
    ∃ as, Run (Guarded (ofFn LatestValue.step) LatestValue.Undisturbed) s as s' :=
  ⟨[a], Run.single ⟨h, hundisturbed⟩⟩

omit [Zero F] [Add F] [Sub F] [BEq F] [LT F] [DecidableLT F] in
/-- The receiver's thread goes on without copies, and its slot shows what it showed. -/
theorem mailbox_idle {w : World F} {n r : ℕ} {j : Fin 7} (hnr : n ≠ r) {c : Client}
    {h : Program F} {point : UpdatePoint} (hthread : (w.program r).thread = point)
    (hpoint : point.copied = [] ∧ point.Going = false)
    (hshown : (h.game.connectedPlayers j).snapshot =
      ((w.program r).game.connectedPlayers j).snapshot)
    (hnext : h.thread.copied = [] ∧ h.thread.Going = false)
    (hbox : c.snapshotMessages = (w.net.conn r).client.snapshotMessages) :
    (⟨w.net.modify r fun conn => { conn with client := c }, Function.update w.program r h⟩ :
      World F).mailbox n r j = w.mailbox n r j := by
  rw [mailbox_reader hnr]
  unfold World.mailbox copiedOf
  rw [hthread, hpoint.1, hpoint.2, hshown, hnext.1, hnext.2, hbox]

/-- A step of the receiver's update thread is at most two of the mailbox. -/
theorem reader_step {limit n r : ℕ} {j : Fin 7} {w : World F} (hs : Connected limit n r j w)
    (hnr : n ≠ r) {c : Client} {h : Program F} (hr : r < w.net.accepts)
    (hupdate : (w.program r).update (w.net.conn r).client = some (c, h))
    (hseated : ∀ pair ∈ (w.program r).thread.next,
      ∃ i, ((w.program r).game.connectedPlayers i).id = pair.1.toNat) :
    ∃ as, Run (Guarded (ofFn LatestValue.step) LatestValue.Undisturbed) (w.mailbox n r j) as
      ((⟨w.net.modify r fun conn => { conn with client := c }, Function.update w.program r h⟩ :
        World F).mailbox n r j) := by
  have hgood := hs.authentic.honest.good r hr
  have hinbox := hs.authentic.honest.carries.inbox r hr
  -- an event that is handled leaves the slots alone
  have hevent : ∀ (hthread : (w.program r).thread = .events)
      (hsize : 0 < (w.net.conn r).client.eventMessagesSize) {c' : Client},
      c'.snapshotMessages = (w.net.conn r).client.snapshotMessages →
      ∃ as, Run (Guarded (ofFn LatestValue.step) LatestValue.Undisturbed) (w.mailbox n r j) as
        ((⟨w.net.modify r fun conn => { conn with client := c' }, Function.update w.program r
          ((w.program r).readGameMessage (w.net.conn r).client.frontEventMessage.senderID
            (w.net.conn r).client.frontEventMessage.message .events)⟩ :
          World F).mailbox n r j) := by
    intro hthread hsize c' hbox
    have hactive : (w.program r).thread.Active := by
      rw [hthread]
      trivial
    have hfront := hinbox.event _ (frontEventMessage_mem hsize)
    rcases hgood.single_event hactive hfront.2 hfront.1 with ⟨label, hlabel, hblock⟩
    have hslots := Program.slots_readGameMessage hblock hlabel
      (w.net.conn r).client.frontEventMessage.senderID .events
    have hnext := (hgood.read hactive hfront.2
      (w.net.conn r).client.frontEventMessage.senderID .events nofun nofun nofun).2
    refine run_same (mailbox_idle hnr hthread ⟨rfl, rfl⟩ (by rw [hslots]) ?_ hbox)
    rw [hnext]
    exact ⟨rfl, rfl⟩
  cases Program.update_cases hupdate with
  | ended hthread | turn hthread | text hthread | noText hthread =>
      exact run_same (mailbox_idle hnr hthread ⟨rfl, rfl⟩ rfl ⟨rfl, rfl⟩ rfl)
  | handled hthread | player i hi hthread | write i hthread | written hthread =>
      exact run_same (mailbox_idle hnr hthread ⟨rfl, rfl⟩ rfl ⟨rfl, rfl⟩ rfl)
  | spin hthread hsize hempty =>
      exact run_same (mailbox_idle hnr hthread ⟨rfl, rfl⟩ rfl (by rw [hthread]; exact ⟨rfl, rfl⟩)
        rfl)
  | event hthread hsize hpos => exact hevent hthread hsize rfl
  | throws hthread hsize hthrown => exact hevent hthread hsize rfl
  | copy hthread hsize =>
      have hnone : (w.mailbox n r j).copied = [] := by
        unfold World.mailbox copiedOf
        rw [hthread]
        rfl
      refine run_one (LatestValue.step_copy hnone
        (UpdatePoint.handle (w.net.conn r).client.snapMessage).Going |>.trans ?_) trivial
      rw [mailbox_reader hnr, copiedOf_snapMessage]
      rfl
  | handle senderID msg copy hthread =>
      have hpair := hseated (senderID, msg) (by rw [hthread]; exact rfl)
      have hcopied := (hs.authentic.shown r hr).copied
      rw [hthread] at hcopied
      rcases hcopied _ List.mem_cons_self with ⟨snap, -, hmessage⟩
      dsimp only at hmessage
      have hread := Program.readGameMessage_snap (w.program r) senderID snap (.clear copy)
      rw [if_pos hs.enabled, ← hmessage] at hread
      rw [hread, mailbox_reader hnr]
      by_cases hid : senderID = (w.net.conn n).clientHandler.clientID
      · -- the slot of `n` shows the next copy
        have hhead : (w.mailbox n r j).copied = payload snap ::
            copiedOf (w.net.conn n).clientHandler.clientID (.clear copy) := by
          unfold World.mailbox copiedOf
          rw [hthread]
          simp [UpdatePoint.copied, hid, hmessage, payload]
        refine run_one (LatestValue.step_display hhead |>.trans ?_) trivial
        have hslot : slotOf (w.program r).game senderID = j := hid ▸ hs.slot
        dsimp only
        rw [hslot, snapshot_putSnapshot]
        unfold World.mailbox
        rw [hthread]
        rfl
      · -- another slot does
        refine run_same ?_
        have hslot : j ≠ slotOf (w.program r).game senderID := by
          rcases hpair with ⟨i, hi⟩
          have hother := id_slotOf hi
          intro heq
          rw [← heq, hs.seated] at hother
          exact hid (UInt8.toNat_inj.1 (Int.ofNat_inj.1 hother)).symm
        unfold World.mailbox copiedOf
        dsimp only
        rw [hthread]
        simp [UpdatePoint.copied, UpdatePoint.Going, GameState.putSnapshot, hid, hslot]
  | clear copy hthread =>
      have hbusy : (w.mailbox n r j).busy = true := by
        unfold World.mailbox
        rw [hthread]
        rfl
      have hcopied : (w.mailbox n r j).copied =
          copiedOf (w.net.conn n).clientHandler.clientID (.handle copy) := by
        unfold World.mailbox copiedOf
        rw [hthread]
        rfl
      have hclear := LatestValue.step_clear hbusy
      rw [mailbox_reader hnr]
      cases copy with
      | cons pair copy =>
          refine run_one (hclear.trans ?_) trivial
          unfold World.mailbox copiedOf
          rw [hthread]
          rfl
      | nil =>
          -- nothing is left of the copy
          have hfinish := LatestValue.step_finish
            (s := { w.mailbox n r j with box := none }) hcopied
          refine ⟨[.clear, .finish], (Run.single ⟨hclear, trivial⟩).append
            (Run.single ⟨hfinish.trans ?_, trivial⟩)⟩
          unfold World.mailbox copiedOf
          rw [hthread]
          rfl

/-! ## The writer -/

/-- A step of the writer's update thread writes a snapshot, or leaves the mailbox alone. -/
theorem writer_step {w : World F} {n r : ℕ} {j : Fin 7} (hnr : n ≠ r) {c : Client} {h : Program F}
    (hupdate : (w.program n).update (w.net.conn n).client = some (c, h)) :
    ∃ as, Run (Guarded (ofFn LatestValue.step) LatestValue.Undisturbed) (w.mailbox n r j) as
      ((⟨w.net.modify n fun conn => { conn with client := c }, Function.update w.program n h⟩ :
        World F).mailbox n r j) := by
  rw [mailbox_writer hnr]
  have hidle : ∀ {point : UpdatePoint} {h' : Program F}, (w.program n).thread = point →
      point.messages = [] → h'.thread.messages = [] → h'.snapshots = (w.program n).snapshots →
      { w.mailbox n r j with
        queue := w.net.onTheWay snapPayload n r ++ h'.thread.messages.flatMap snapPayload
        written := h'.snapshots.map payload } = w.mailbox n r j := by
    intro point h' hthread hpoint hmessages hsnapshots
    unfold World.mailbox
    rw [hthread, hpoint, hmessages, hsnapshots]
  have hread : ∀ {point point' : UpdatePoint} {senderID : UInt8} {message : List UInt8},
      (w.program n).thread = point → point.messages = [] → point'.messages = [] →
      { w.mailbox n r j with
        queue := w.net.onTheWay snapPayload n r ++
          ((w.program n).readGameMessage senderID message point').thread.messages.flatMap
            snapPayload
        written := ((w.program n).readGameMessage senderID message point').snapshots.map
          payload } = w.mailbox n r j := by
    intro point point' senderID message hthread hpoint hpoint'
    refine hidle hthread hpoint ?_ (Program.snapshots_readGameMessage _ _ _ _)
    rcases thread_readGameMessage (w.program n) senderID message point' with hnext | hnext
    · rw [hnext]
      exact hpoint'
    · rw [hnext]
      rfl
  cases Program.update_cases hupdate with
  | write i hthread =>
      refine run_one (a := .write (payload (MainPlayer.processData (w.program n).game.process
        (w.program n).ptrs : Snapshot F))) ?_ trivial
      have hqueue : (w.mailbox n r j).queue = w.net.onTheWay snapPayload n r := by
        unfold World.mailbox
        rw [hthread]
        exact List.append_nil _
      unfold LatestValue.step
      dsimp only [UpdatePoint.messages]
      rw [hqueue, snapPayload_write, List.map_append]
      rfl
  | event hthread | throws hthread => exact run_same (hread hthread rfl rfl)
  | handle senderID msg copy hthread => exact run_same (hread hthread rfl rfl)
  | spin hthread => exact run_same (hidle hthread rfl (by rw [hthread]; rfl) rfl)
  | ended hthread | turn hthread | text hthread | noText hthread | copy hthread | handled hthread
  | clear copy hthread | player i hi hthread | written hthread =>
      exact run_same (hidle hthread rfl rfl rfl)

/-! ## Steps of all parties -/

omit [Zero F] [Add F] [Sub F] [BEq F] [LT F] [DecidableLT F] in
/-- A program goes on, with the slots, the copies and the messages that it had. -/
theorem mailbox_kept {w : World F} {n r m : ℕ} {j : Fin 7} {h : Program F}
    (hshown : (h.game.connectedPlayers j).snapshot =
      ((w.program m).game.connectedPlayers j).snapshot)
    (hcopied : h.thread.copied = (w.program m).thread.copied ∧
      h.thread.Going = (w.program m).thread.Going)
    (hmessages : h.thread.messages = (w.program m).thread.messages)
    (hsnapshots : h.snapshots = (w.program m).snapshots) :
    (⟨w.net, Function.update w.program m h⟩ : World F).mailbox n r j = w.mailbox n r j := by
  have hsame : ∀ {β : Type} (f : Program F → β), f h = f (w.program m) →
      ∀ k, f (Function.update w.program m h k) = f (w.program k) := by
    intro β f hf k
    by_cases hk : k = m
    · subst hk
      rw [Function.update_self, hf]
    · rw [Function.update_of_ne hk]
  exact mailbox_congr rfl (hsame (fun h => (h.game.connectedPlayers j).snapshot) hshown r)
    ⟨hsame (fun h => h.thread.copied) hcopied.1 r, hsame (fun h => h.thread.Going) hcopied.2 r⟩ rfl
    rfl (hsame (fun h => h.thread.messages) hmessages n)
    (hsame (fun h => h.snapshots) hsnapshots n)

omit [Zero F] [Add F] [Sub F] [BEq F] [LT F] [DecidableLT F] in
/-- A step of the network: a snapshot arrives, or nothing changes. -/
theorem net_step {w : World F} {n r : ℕ} {j : Fin 7} {a : HobbitSynchrony.Action} {net : Net}
    (hserving : Serving w.net) (hn : n < w.net.accepts) (hpresent : Present r w.net.clients)
    (hnr : n ≠ r) (hquiet : w.net.Quiet r) (h : Step w.net a net) (hcalm : a.Calm)
    (hsend : ∀ n body, a ≠ .clientSend n body)
    (hbusy : a = .deliver r → (w.program r).thread.Going = false) :
    ∃ as, Run (Guarded (ofFn LatestValue.step) LatestValue.Undisturbed) (w.mailbox n r j) as
      ((⟨net, w.heard a⟩ : World F).mailbox n r j) := by
  -- the listeners give the slots other IDs at most
  have hheard : ∀ k, ((w.heard a k).game.connectedPlayers j).snapshot =
        ((w.program k).game.connectedPlayers j).snapshot ∧
      (w.heard a k).thread = (w.program k).thread ∧
      (w.heard a k).snapshots = (w.program k).snapshots := by
    intro k
    rcases World.heard_cases a w k with hsame | ⟨clientIDs, hlist⟩
    · rw [hsame]
      exact ⟨rfl, rfl, rfl⟩
    · rw [hlist]
      exact ⟨rfl, rfl, rfl⟩
  have hid := h.clientHandler hn
  have hφ : ∀ (msg : BaseMessage UInt8) (id : UInt8),
    snapPayload { msg with senderID := id } = snapPayload msg := fun _ _ => rfl
  cases streamStep hserving h hcalm hn hpresent hnr hφ with
  | same ha hclient hitems =>
      refine run_same (mailbox_congr hid (hheard r).1 ?_ (by rw [hclient]) hitems ?_ (hheard n).2.2)
      · dsimp only
        rw [(hheard r).2.1]
        exact ⟨rfl, rfl⟩
      · dsimp only
        rw [(hheard n).2.1]
  | sent body ha hclient hitems => exact absurd ha (hsend n body)
  | delivered frame rest ha hflight hclient hitems =>
      have hbody := hquiet frame (by rw [hflight]; exact List.mem_cons_self)
      have hafter : (⟨net, w.heard a⟩ : World F).mailbox n r j =
          { w.mailbox n r j with
            box := ((net.conn r).client.snapshotMessages
              (w.net.conn n).clientHandler.clientID).map BaseMessage.message
            queue := net.onTheWay snapPayload n r ++
              (w.program n).thread.messages.flatMap snapPayload } := by
        unfold World.mailbox
        dsimp only
        rw [hid, (hheard r).1, (hheard r).2.1, (hheard n).2.1, (hheard n).2.2]
      rw [hafter, hclient]
      rcases box_receiveBody hbody (w.net.conn r).client (w.net.conn n).clientHandler.clientID with
        ⟨hnone, hbox⟩ | ⟨x, hone, hbox⟩
      · -- a frame of another sender, or no snapshot
        rw [hnone, List.nil_append] at hitems
        rw [hbox, ← hitems]
        exact run_same rfl
      · have hqueue : (w.mailbox n r j).queue = x :: (net.onTheWay snapPayload n r ++
            (w.program n).thread.messages.flatMap snapPayload) := by
          unfold World.mailbox
          rw [hitems, hone]
          rfl
        rw [hbox]
        exact run_one (LatestValue.step_arrive hqueue) (hbusy ha)

omit [Zero F] [Add F] [Sub F] [BEq F] [LT F] [DecidableLT F] in
/-- A third client goes on. -/
theorem mailbox_other {w : World F} {n r m : ℕ} {j : Fin 7} (hn : n ≠ m) (hr : r ≠ m) (c : Client)
    (h : Program F) :
    (⟨w.net.modify m fun conn => { conn with client := c }, Function.update w.program m h⟩ :
      World F).mailbox n r j = w.mailbox n r j := by
  unfold World.mailbox Net.onTheWay
  simp only [Net.conn_modify, Function.update_of_ne hn, Function.update_of_ne hr]

omit [Zero F] [Add F] [Sub F] [BEq F] [LT F] [DecidableLT F] in
/-- A message that is sent goes from the program to the socket. -/
theorem mailbox_send {w : World F} {n r m : ℕ} {j : Fin 7} {msg : BaseMessage UInt8}
    {messages : List (BaseMessage UInt8)} {net : Net} {senderID : UInt8}
    (hserving : Serving w.net) (hn : n < w.net.accepts) (hpresent : Present r w.net.clients)
    (hnr : n ≠ r) (hthread : (w.program m).thread = .writing (msg :: messages))
    (h : Step w.net (.clientSend m (serializeMessage { msg with senderID := senderID })) net) :
    (⟨net, Function.update w.program m { w.program m with thread := .writing messages }⟩ :
      World F).mailbox n r j = w.mailbox n r j := by
  have hφ : ∀ (msg : BaseMessage UInt8) (id : UInt8),
    snapPayload { msg with senderID := id } = snapPayload msg := fun _ _ => rfl
  have hid := h.clientHandler hn
  -- a thread that writes has no copies
  have hreader : ∀ k, ((Function.update w.program m
        { w.program m with thread := .writing messages } k).game.connectedPlayers j).snapshot =
        ((w.program k).game.connectedPlayers j).snapshot ∧
      (Function.update w.program m
        { w.program m with thread := .writing messages } k).thread.copied =
        (w.program k).thread.copied ∧
      (Function.update w.program m
        { w.program m with thread := .writing messages } k).thread.Going =
        (w.program k).thread.Going := by
    intro k
    by_cases hk : k = m
    · subst hk
      rw [Function.update_self, hthread]
      exact ⟨rfl, rfl, rfl⟩
    · rw [Function.update_of_ne hk]
      exact ⟨rfl, rfl, rfl⟩
  cases streamStep hserving h trivial hn hpresent hnr hφ with
  | same ha hclient hitems =>
      have hnm : n ≠ m := by
        rintro rfl
        exact ha _ rfl
      refine mailbox_congr hid (hreader r).1 (hreader r).2 (by rw [hclient]) hitems ?_ ?_
      · dsimp only
        rw [Function.update_of_ne hnm]
      · dsimp only
        rw [Function.update_of_ne hnm]
  | sent body ha hclient hitems =>
      cases ha
      unfold World.mailbox
      dsimp only
      rw [hid, (hreader r).1, (hreader r).2.2, hclient, hitems, bodyItems_serializeMessage,
        Function.update_self, hthread]
      unfold copiedOf
      rw [(hreader r).2.1, List.append_assoc]
      rfl
  | delivered frame rest ha hflight hclient hitems => cases ha

/-- Nobody joins or leaves, and client `r` is attentive. -/
def Together (limit r : ℕ) (w : World F) (a : Action F) : Prop :=
  Manageable limit w a ∧ a.Calm ∧ Attentive r w a

instance (limit r : ℕ) (w : World F) (a : Action F) : Decidable (Together limit r w a) :=
  inferInstanceAs (Decidable (_ ∧ _))

theorem mailbox_step {limit n r : ℕ} {j : Fin 7} {w w' : World F} {a : Action F}
    (hs : Connected limit n r j w) (hnr : n ≠ r)
    (h : Guarded World.step (Together limit r) w a w') :
    ∃ as, Run (Guarded (ofFn LatestValue.step) LatestValue.Undisturbed) (w.mailbox n r j) as
      (w'.mailbox n r j) := by
  rcases h with ⟨hstep, -, hcalm, hattentive⟩
  have hr : r < w.net.accepts := present_lt hs.serving.wellFormed hs.receiver
  cases World.step_cases hstep with
  | net b net hb hsend haccept =>
      refine net_step hs.serving hs.sender hs.receiver hnr hs.quiet hb hcalm hsend ?_
      rintro rfl
      exact hattentive rfl
  | join | rejoin => exact hcalm.elim
  | start m hm hthread =>
      refine run_same (mailbox_kept rfl ?_ ?_ rfl)
      · rw [hthread]
        exact ⟨rfl, rfl⟩
      · rw [hthread]
        rfl
  | play m process hm => exact run_same (mailbox_kept rfl ⟨rfl, rfl⟩ rfl rfl)
  | enterNewLevel m hm => exact run_same (mailbox_kept rfl ⟨rfl, rfl⟩ rfl rfl)
  | exitLevel m hm => exact run_same (mailbox_kept rfl ⟨rfl, rfl⟩ rfl rfl)
  | setLabel m label enable hm => exact run_same (mailbox_kept rfl ⟨rfl, rfl⟩ rfl rfl)
  | send m msg messages net hm hthread hb =>
      exact run_same (mailbox_send hs.serving hs.sender hs.receiver hnr hthread hb)
  | pass m msg messages hm hthread hempty =>
      -- no empty message is written
      have hmessages := (hs.authentic.honest.good m hm).messages
      rw [hthread] at hmessages
      have hpos := (hmessages msg List.mem_cons_self).payload
      rw [hempty] at hpos
      exact absurd hpos (Nat.lt_irrefl 0)
  | update m c program hm hupdate =>
      by_cases hmr : m = r
      · subst hmr
        exact reader_step hs hnr hm hupdate (hattentive rfl)
      · by_cases hmn : m = n
        · subst hmn
          exact writer_step hnr hupdate
        · exact run_same (mailbox_other (fun heq => hmn heq.symm) (fun heq => hmr heq.symm) c
            program)

end mailbox

end Multiplayer

end HobbitSynchrony
