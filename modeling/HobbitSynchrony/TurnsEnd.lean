import HobbitSynchrony.NoThrow

/-! # Turns come to an end

`HobbitClient::update` has loops that only the inboxes end. Among clients that are
this program a turn, once begun, is over after finitely many steps of its thread:
every event has a payload, so every turn of the event loop pops one. The `send` of
a message the turn writes is a step like the others, so it returns.

* `UpdatePoint.remaining`: how many steps a turn still takes at most;
* `update_progress`: the update thread can take a step, and lowers that number;
* `turn_step`: the same with the messages that are sent;
* `turn_ends`: the turn ends, and has drained the events it found.
-/

namespace HobbitSynchrony

open Transition

namespace Multiplayer

/-- How many steps the turn takes at most, if nothing arrives. -/
def UpdatePoint.remaining (c : Client) : UpdatePoint → ℕ
  | .texts => c.eventMessages.length + 530
  | .events => c.eventMessages.length + 529
  | .handle copy => 2 * copy.length + 14
  | .clear copy => 2 * copy.length + 15
  | .players i => (7 - i) + 6
  | .writing messages => messages.length + 1
  | .moved | .ended | .waiting | .thrown => 0

/-- The update thread is before the end of its event loop. -/
def UpdatePoint.Reading (point : UpdatePoint) : Prop := point = .texts ∨ point = .events

theorem length_snapMessage_le (c : Client) : c.snapMessage.length ≤ 256 := by
  have h := List.length_filterMap_le (fun senderID =>
    (c.snapshotMessages senderID).map fun msg => (senderID, msg))
      ((List.range 256).map UInt8.ofNat)
  rwa [List.length_map, List.length_range] at h

variable {F : Type} [FixedWidth UInt8 F 4] [Zero F] [Sub F] [BEq F] [LT F] [DecidableLT F]

theorem length_write_le (process : HobbitProcessAnalyzer UInt8) (ptrs : MainPlayer.BilboPtrs)
    (player : MainPlayer F) : (MainPlayer.write process ptrs player).1.length ≤ 3 := by
  unfold MainPlayer.write
  dsimp only
  rw [List.length_append, List.length_append, List.length_singleton]
  have hevent : ∀ msg : BaseMessage UInt8,
      (if 0 < msg.message.length then [msg] else []).length ≤ 1 := by
    intro msg
    split
    · exact Nat.le_refl 1
    · exact Nat.zero_le 1
  have henemy := hevent (MainPlayer.writeEnemiesEvent process player).1
  have hinventory := hevent (MainPlayer.writeInventoryEvent process
    (MainPlayer.writeEnemiesEvent process player).2).1
  omega

/-- A written message is short enough for the size of its frame. -/
theorem length_written_lt {limit : ℕ} (hlimit : limit ≤ 255) {msg : BaseMessage UInt8}
    (h : Written F limit msg) (senderID : UInt8) :
    (serializeMessage { msg with senderID := senderID }).length < 2 ^ 32 := by
  have hpayload : msg.message.length ≤ 4096 := by
    rcases h with ⟨process, ptrs, player, hfew, m, hm, -, hmessage⟩
    rw [hmessage]
    rcases MainPlayer.mem_write hm with rfl | ⟨rfl, hpos⟩ | ⟨player', rfl, hpos⟩
    · rcases (MainPlayer.sized_writeSnap (MainPlayer.processData process ptrs : Snapshot F) :
        MainPlayer.Sized _ _ _ (_ : List UInt8)) with ⟨rest, heq, hrest⟩
      rw [heq, List.length_cons, List.length_cons, hrest]
      omega
    · rcases MainPlayer.sized_writeEnemiesEvent process player hpos with ⟨rest, heq, hrest⟩
      rw [heq, List.length_cons, List.length_cons, hrest]
      omega
    · rcases MainPlayer.sized_writeInventoryEvent process player' hpos with
        ⟨len, hlen, rest, heq, hrest⟩
      rw [heq, List.length_cons, List.length_cons, hrest]
      omega
  have hlength : (serializeMessage { msg with senderID := senderID }).length =
      msg.message.length + 2 := by
    simp [serializeMessage]
  rw [hlength]
  omega

variable [Add F]

/-! ## A step of the thread -/

/-- An event is handled, and the thread goes on with the events. -/
theorem Good.thread_event {limit : ℕ} {h : Program F} (hgood : Good limit h)
    (hactive : h.thread.Active) {msg : BaseMessage UInt8} (hwritten : Written F limit msg) :
    (h.readGameMessage msg.senderID msg.message .events).thread = .events :=
  (hgood.read hactive hwritten msg.senderID .events nofun nofun nofun).2

/-- A snapshot is handled, and the thread goes on with the rest of its copy. -/
theorem Good.thread_snap {limit : ℕ} {h : Program F} (hgood : Good limit h)
    {snap : UInt8 × BaseMessage UInt8} {copy : List (UInt8 × BaseMessage UInt8)}
    (hthread : h.thread = .handle (snap :: copy)) :
    (h.readGameMessage snap.1 snap.2.message (.clear copy)).thread = .clear copy := by
  have hactive : h.thread.Active := by
    rw [hthread]
    exact trivial
  have hcopied := hgood.copied
  rw [hthread] at hcopied
  exact (hgood.read hactive (hcopied _ List.mem_cons_self) snap.1 (.clear copy)
    (fun s hs => hcopied s (List.mem_cons_of_mem _ hs)) nofun nofun).2

/-- The update thread can take a step of its turn, and gets closer to its end. Only if
2^32 events or more are queued can the event loop end with some of them left. -/
theorem update_progress {limit : ℕ} {c : Client} {h : Program F} (hgood : Good limit h)
    (hc : InboxMeets (Written F limit) c) (hactive : h.thread.Active)
    (hsend : ∀ msg messages, h.thread ≠ .writing (msg :: messages)) :
    ∃ c' h', h.update c = some (c', h') ∧
      c'.eventMessages.length ≤ c.eventMessages.length ∧
      (h'.thread.Reading ∨ c.eventMessages = c'.eventMessages ∧
        (h.thread.Reading → c.eventMessages.length < 2 ^ 32 → c'.eventMessages = [])) ∧
      (h'.thread.Active ∨ h'.thread = .waiting) ∧
      h'.thread.remaining c' < h.thread.remaining c := by
  unfold Program.update
  cases hthread : h.thread with
  | moved | ended | waiting | thrown =>
      rw [hthread] at hactive
      exact hactive.elim
  | texts =>
      dsimp only
      split
      · refine ⟨_, _, rfl, Nat.le_refl _, .inl (.inr rfl), .inl trivial, ?_⟩
        exact Nat.lt_succ_self _
      · refine ⟨_, _, rfl, Nat.le_refl _, .inl (.inr rfl), .inl trivial, ?_⟩
        exact Nat.lt_succ_self _
  | events =>
      by_cases hsize : 0 < c.eventMessagesSize
      · have hwritten := (hc.event _ (frontEventMessage_mem hsize)).2
        have hread := hgood.thread_event hactive hwritten
        simp only [if_pos hsize, if_pos hwritten.payload]
        -- the event is popped
        have hpos : 0 < c.eventMessages.length :=
          List.length_pos_of_mem (frontEventMessage_mem hsize)
        refine ⟨c.popFrontEventMessage, _, ?_, ?_, .inl (.inr hread), .inl ?_, ?_⟩
        · rw [hread]
        · simp [Client.popFrontEventMessage]
        · rw [hread]
          exact trivial
        · rw [hread]
          simp only [UpdatePoint.remaining, Client.popFrontEventMessage, List.length_tail]
          omega
      · simp only [if_neg hsize]
        have hnil : c.eventMessages.length < 2 ^ 32 → c.eventMessages = [] := by
          intro hevents
          by_contra hne
          exact hsize (eventMessagesSize_pos hne hevents)
        have hcopy := length_snapMessage_le c
        refine ⟨_, _, rfl, Nat.le_refl _, .inr ⟨rfl, fun _ => hnil⟩, .inl trivial, ?_⟩
        simp only [UpdatePoint.remaining]
        omega
  | handle copy =>
      cases copy with
      | nil =>
          refine ⟨_, _, rfl, Nat.le_refl _, .inr ⟨rfl, ?_⟩, .inl trivial, ?_⟩
          · rintro (hreading | hreading) <;> cases hreading
          · simp only [UpdatePoint.remaining, List.length_nil]
            omega
      | cons snap copy =>
          have hread := hgood.thread_snap hthread
          refine ⟨_, _, rfl, Nat.le_refl _, .inr ⟨rfl, ?_⟩, .inl ?_, ?_⟩
          · rintro (hreading | hreading) <;> cases hreading
          · rw [hread]
            exact trivial
          · rw [hread]
            simp only [UpdatePoint.remaining, List.length_cons]
            omega
  | clear copy =>
      refine ⟨_, _, rfl, Nat.le_refl _, .inr ⟨rfl, ?_⟩, .inl trivial, ?_⟩
      · rintro (hreading | hreading) <;> cases hreading
      · exact Nat.lt_succ_self _
  | players i =>
      dsimp only
      split
      next hi =>
        refine ⟨_, _, rfl, Nat.le_refl _, .inr ⟨rfl, ?_⟩, .inl trivial, ?_⟩
        · rintro (hreading | hreading) <;> cases hreading
        · simp only [UpdatePoint.remaining]
          omega
      next hi =>
        have hlen := length_write_le h.game.process h.ptrs h.game.mainPlayer
        refine ⟨_, _, rfl, Nat.le_refl _, .inr ⟨rfl, ?_⟩, .inl trivial, ?_⟩
        · rintro (hreading | hreading) <;> cases hreading
        · simp only [UpdatePoint.remaining]
          omega
  | writing messages =>
      cases messages with
      | cons msg messages => exact absurd hthread (hsend msg messages)
      | nil =>
          refine ⟨_, _, rfl, Nat.le_refl _, .inr ⟨rfl, ?_⟩, .inr rfl, ?_⟩
          · rintro (hreading | hreading) <;> cases hreading
          · exact Nat.zero_lt_succ _

/-! ## Whole turns -/

/-- In a turn of client `n`, or just behind it. Once it is behind its event loop no event
is queued, if it was to drain them. -/
structure InTurn (limit : ℕ) (n : ℕ) (drains : Prop) (w : World F) : Prop where
  honest : Honest limit w
  accepted : n < w.net.accepts
  thread : (w.program n).thread.Active ∨ (w.program n).thread = .waiting
  drained : drains → (w.net.conn n).client.eventMessages.length < 2 ^ 32 ∧
    ((w.program n).thread.Reading ∨ (w.net.conn n).client.eventMessages = [])

/-- The steps that are left in the turn of client `n`. -/
def World.remaining (n : ℕ) (w : World F) : ℕ :=
  (w.program n).thread.remaining (w.net.conn n).client

/-- A step of the update thread, alone. -/
theorem turn_step {limit : ℕ} (hlimit : limit ≤ 255) {n : ℕ} {drains : Prop} (w : World F)
    (hw : InTurn limit n drains w) (hactive : ¬ ¬ (w.program n).thread.Active) :
    ∃ w', World.step w (.update n) w' ∧ InTurn limit n drains w' ∧
      w'.remaining n < w.remaining n := by
  have hgood := hw.honest.good n hw.accepted
  have hhonest : ∀ w', World.step w (.update n) w' → Honest limit w' :=
    fun w' hstep => honest_step hlimit hw.honest ⟨hstep, trivial⟩
  by_cases hsend : ∃ msg messages, (w.program n).thread = .writing (msg :: messages)
  · -- a message is sent
    rcases hsend with ⟨msg, messages, hthread⟩
    have hmessages := hgood.messages
    rw [hthread] at hmessages
    have hwritten := hmessages msg List.mem_cons_self
    have hlength := length_written_lt hlimit hwritten (w.net.conn n).client.clientID
    have hstep : World.step w (.update n)
        ⟨w.net.modify n (Connection.submit (serializeMessage
          { msg with senderID := (w.net.conn n).client.clientID })),
          Function.update w.program n { w.program n with thread := .writing messages }⟩ := by
      show w.update n = some _
      unfold World.update
      simp only [if_pos hw.accepted, hthread, if_pos hwritten.payload]
      rw [Net.next, if_pos ⟨hw.accepted, hlength⟩]
      exact rfl
    have hclient : ((w.net.modify n (Connection.submit (serializeMessage
        { msg with senderID := (w.net.conn n).client.clientID }))).conn n).client =
          (w.net.conn n).client := by
      rw [Net.conn_modify, Function.update_self]
      rfl
    refine ⟨_, hstep, ⟨hhonest _ hstep, hw.accepted, ?_, ?_⟩, ?_⟩
    · dsimp only
      rw [Function.update_self]
      exact .inl trivial
    · intro hdrains
      dsimp only
      rw [hclient]
      rcases hw.drained hdrains with ⟨hevents, hreading | hnil⟩
      · rw [hthread] at hreading
        rcases hreading with hreading | hreading <;> cases hreading
      · exact ⟨hevents, .inr hnil⟩
    · unfold World.remaining
      dsimp only
      rw [hclient, Function.update_self, hthread]
      exact Nat.lt_succ_self _
  · have hother : ∀ msg messages, (w.program n).thread ≠ .writing (msg :: messages) :=
      fun msg messages hthread => hsend ⟨msg, messages, hthread⟩
    rcases update_progress hgood (hw.honest.carries.inbox n hw.accepted) (not_not.1 hactive)
      hother with ⟨c', h', hupdate, hevents, hdrained, hthread, hlt⟩
    have hstep : World.step w (.update n) ⟨w.net.modify n fun conn => { conn with client := c' },
        Function.update w.program n h'⟩ := by
      show w.update n = some _
      unfold World.update
      simp only [if_pos hw.accepted]
      rw [hupdate]
      exact rfl
    have hclient : ((w.net.modify n fun conn => { conn with client := c' }).conn n).client =
        c' := by
      rw [Net.conn_modify, Function.update_self]
    refine ⟨_, hstep, ⟨hhonest _ hstep, hw.accepted, ?_, ?_⟩, ?_⟩
    · dsimp only
      rw [Function.update_self]
      exact hthread
    · intro hdrains
      dsimp only
      rw [hclient, Function.update_self]
      rcases hw.drained hdrains with ⟨hfew, hstill⟩
      refine ⟨hevents.trans_lt hfew, ?_⟩
      rcases hdrained with hreading | ⟨hsame, hnil⟩
      · exact .inl hreading
      · rcases hstill with hreading | hempty
        · exact .inr (hnil hreading hfew)
        · exact .inr (hsame ▸ hempty)
    · unfold World.remaining
      dsimp only
      rw [hclient, Function.update_self]
      exact hlt

/-- A turn that has begun ends, and the thread is at the head of its loop again: after at
most `remaining` steps, if it is left alone. If the turn was still at its texts or events,
and fewer than 2^32 events were queued, none is left in the inbox. -/
theorem turn_ends {limit : ℕ} (hlimit : limit ≤ 255) {program : Program F}
    {as : List (Action F)} {w : World F}
    (hrun : Run (Guarded World.step (Manageable limit)) (World.start program) as w) {n : ℕ}
    (hn : n < w.net.accepts) (hactive : (w.program n).thread.Active) :
    ∃ k w', k ≤ w.remaining n ∧ Run World.step w (List.replicate k (.update n)) w' ∧
      (w'.program n).thread = .waiting ∧
      ((w.program n).thread.Reading → (w.net.conn n).client.eventMessages.length < 2 ^ 32 →
        (w'.net.conn n).client.eventMessages = []) := by
  have hstart : InTurn limit n ((w.program n).thread.Reading ∧
      (w.net.conn n).client.eventMessages.length < 2 ^ 32) w :=
    ⟨honest_run hlimit hrun, hn, .inl hactive, fun h => ⟨h.2, .inl h.1⟩⟩
  rcases exists_run_of_measure (fun w => ¬ (w.program n).thread.Active) (World.remaining n)
      (fun w hw hactive => turn_step hlimit w hw hactive) hstart with
    ⟨k, w', hk, hturn, hend, hgoal⟩
  refine ⟨k, w', hk, hturn, hend.thread.resolve_left hgoal, ?_⟩
  intro hreading hfew
  rcases (hend.drained ⟨hreading, hfew⟩).2 with hstill | hnil
  · exact absurd (by rcases hstill with h | h <;> rw [h] <;> trivial) hgoal
  · exact hnil

instance (point : UpdatePoint) : Decidable point.Active :=
  match point with
  | .moved | .ended | .waiting | .thrown => instDecidableFalse
  | .texts | .events | .handle _ | .clear _ | .players _ | .writing _ => instDecidableTrue

/-- The shared turn up to where the second client begins one, with a snapshot in its
inbox. -/
def begunTurn : List (Action UInt32) := sharedTurn.take 31

set_option maxRecDepth 4000 in
theorem isSome_begunTurn :
    (exec (guardFn World.next (Manageable 20)) (World.start newcomer) begunTurn).isSome := by
  decide

/-- The world in which it has. -/
def afterBegunTurn : World UInt32 :=
  (exec (guardFn World.next (Manageable 20)) (World.start newcomer) begunTurn).get
    isSome_begunTurn

set_option maxRecDepth 4000 in
theorem run_begunTurn : ∃ w : World UInt32,
    Run (Guarded World.step (Manageable 20)) (World.start newcomer) begunTurn w ∧
      1 < w.net.accepts ∧ (w.program 1).thread.Active :=
  ⟨afterBegunTurn, run_of_isSome isSome_begunTurn, by decide, by decide⟩

/-- The second client ends its turn. -/
theorem turn_ends_shared : ∃ (w w' : World UInt32) (k : ℕ),
    Run (Guarded World.step (Manageable 20)) (World.start newcomer) begunTurn w ∧
      Run World.step w (List.replicate k (.update 1)) w' ∧ (w'.program 1).thread = .waiting := by
  rcases run_begunTurn with ⟨w, hrun, hn, hactive⟩
  rcases turn_ends (by decide) hrun hn hactive with ⟨k, w', -, hturn, hend, -⟩
  exact ⟨w, w', k, hrun, hturn, hend⟩

end Multiplayer

end HobbitSynchrony
