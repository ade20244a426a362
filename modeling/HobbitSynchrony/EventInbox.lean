import HobbitSynchrony.Client
import HobbitSynchrony.GameMessage

/-! # Draining the event inbox

The event loop of `HobbitClient::readMessage`. An event is popped only on the
branch that reads it, so an event without payload stays at the front and the
loop never ends; and the loop looks at the size of the inbox as `uint32_t`.

* `readEvents`: the loop, a bounded number of turns of it;
* `Stuck`: the inboxes on which a turn makes no way, or not to the end;
* `readEvents_drains_iff`: the inboxes that are drained are the other ones.
-/

namespace HobbitSynchrony

open Client

/-- The update thread in the event loop: the client, the game state and, as
history, the events passed to `readGameMessage` so far. -/
structure Reading (F : Type) where
  client : Client
  game : GameState UInt8 F
  passed : List (BaseMessage UInt8)

section loop

variable {F : Type} [FixedWidth UInt8 F 4] [Zero F] [Add F] [LT F] [DecidableLT F]

/-- The loop `while (client.eventMessagesSize() > 0)`. It returns `true` when
the condition has failed, `false` when `fuel` turns were not enough. -/
def readEvents (states : LabelStates) :
    ℕ → Reading F → EStateM.Result GameError (Reading F) Bool
  | 0, s => .ok false s
  | fuel + 1, s =>
    if 0 < s.client.eventMessagesSize then
      let eventMessageOpt := s.client.frontEventMessage
      if 0 < eventMessageOpt.message.length then
        let s := { s with passed := s.passed ++ [eventMessageOpt] }
        match readGameMessage states eventMessageOpt.senderID
            ⟨eventMessageOpt.message, s.game⟩ with
        | .ok _ after =>
          readEvents states fuel
            { s with game := after.game, client := s.client.popFrontEventMessage }
        | .error e after => .error e { s with game := after.game }
      -- nothing is popped, and the next turn finds the same event
      else readEvents states fuel s
    else .ok true s

/-- The loop ends with an empty inbox, having passed on the events with a
payload, each once and in order. -/
def Drains (states : LabelStates) (client : Client) (game : GameState UInt8 F) : Prop :=
  ∃ fuel s', readEvents states fuel ⟨client, game, []⟩ = .ok true s' ∧
    s'.client.eventMessages = [] ∧
    s'.passed = client.eventMessages.filter fun m => 0 < m.message.length

/-! ## Inboxes that are drained -/

theorem eventMessagesSize_pos {c : Client} (hne : c.eventMessages ≠ [])
    (hlen : c.eventMessages.length < 2 ^ 32) : 0 < c.eventMessagesSize := by
  have hpos : 0 < c.eventMessages.length := List.length_pos_iff.2 hne
  rw [UInt32.lt_iff_toNat_lt, eventMessagesSize, UInt32.toNat_ofNat_of_lt' hlen]
  exact hpos

/-- One turn on an event with a payload that can be read. -/
theorem readEvents_turn (states : LabelStates) (s : Reading F) (m : BaseMessage UInt8)
    (rest : List (BaseMessage UInt8)) (hq : s.client.eventMessages = m :: rest)
    (hsize : 0 < s.client.eventMessagesSize) (hpayload : 0 < m.message.length)
    (hread : Readable F states s.game.mainPlayer.inventory.length m.message) :
    ∃ game : GameState UInt8 F,
      game.mainPlayer.inventory.length = s.game.mainPlayer.inventory.length ∧
      ∀ fuel, readEvents states (fuel + 1) s =
        readEvents states fuel ⟨s.client.popFrontEventMessage, game, s.passed ++ [m]⟩ := by
  rcases readBlocks_of_readable states m.senderID _ m.message hread m.message.length le_rfl s.game
    rfl with ⟨game, hrun, hlen⟩
  refine ⟨game, hlen, ?_⟩
  intro fuel
  have hfront : s.client.frontEventMessage = m := by simp [frontEventMessage, hq]
  rw [readEvents, if_pos hsize]
  dsimp only
  rw [hfront, if_pos hpayload, readGameMessage, hrun]

theorem readEvents_of_payloads (states : LabelStates) (q : List (BaseMessage UInt8))
    (s : Reading F) (hq : s.client.eventMessages = q) (hlen : q.length < 2 ^ 32)
    (hpayload : ∀ m ∈ q, 0 < m.message.length)
    (hread : ∀ m ∈ q, Readable F states s.game.mainPlayer.inventory.length m.message) :
    ∃ s', readEvents states (q.length + 1) s = .ok true s' ∧
      s'.client.eventMessages = [] ∧ s'.passed = s.passed ++ q := by
  induction q generalizing s with
  | nil =>
      refine ⟨s, ?_, hq, (List.append_nil _).symm⟩
      have hsize : ¬ 0 < s.client.eventMessagesSize := by simp [eventMessagesSize, hq]
      rw [readEvents, if_neg hsize]
  | cons m rest ih =>
      have hsize : 0 < s.client.eventMessagesSize :=
        eventMessagesSize_pos (by simp [hq]) (by rw [hq]; exact hlen)
      -- one turn pops `m`, and the rest is drained by the induction hypothesis
      rcases readEvents_turn states s m rest hq hsize (hpayload m List.mem_cons_self)
        (hread m List.mem_cons_self) with ⟨game, hkeep, hturn⟩
      have hrest : (s.client.popFrontEventMessage).eventMessages = rest := by
        simp [popFrontEventMessage, hq]
      rcases ih ⟨s.client.popFrontEventMessage, game, s.passed ++ [m]⟩ hrest
          (by simp only [List.length_cons] at hlen; omega)
          (fun e he => hpayload e (List.mem_cons_of_mem _ he))
          (fun e he => by rw [hkeep]; exact hread e (List.mem_cons_of_mem _ he)) with
        ⟨s', hrun, hnil, hpassed⟩
      refine ⟨s', ?_, hnil, ?_⟩
      · rw [List.length_cons, hturn, hrun]
      · rw [hpassed, List.append_assoc, List.singleton_append]

/-! ## Inboxes that are not -/

/-- An inbox with an event without payload, or of a size that `uint32_t` does
not hold. -/
def Stuck (q : List (BaseMessage UInt8)) : Prop :=
  (∃ m ∈ q, m.message = []) ∨ 2 ^ 32 ≤ q.length

/-- A turn that pops an event leaves a stuck inbox stuck. -/
theorem stuck_tail {c : Client} (h : Stuck c.eventMessages) (hsize : 0 < c.eventMessagesSize)
    (hpayload : 0 < c.frontEventMessage.message.length) :
    Stuck c.popFrontEventMessage.eventMessages := by
  unfold popFrontEventMessage
  dsimp only
  rcases hq : c.eventMessages with _ | ⟨m, rest⟩
  · simp [eventMessagesSize, hq] at hsize
  have hfront : c.frontEventMessage = m := by simp [frontEventMessage, hq]
  rw [hfront] at hpayload
  rw [hq] at h
  rcases h with ⟨e, he, hempty⟩ | hlong
  · -- the event without payload is not the one in front
    left
    rcases List.mem_cons.1 he with rfl | he
    · simp [hempty] at hpayload
    · exact ⟨e, he, hempty⟩
  · -- exactly 2 ^ 32 events are taken for none
    right
    have hne : (m :: rest).length % 2 ^ 32 ≠ 0 := by
      intro hzero
      apply absurd hsize
      rw [UInt32.lt_iff_toNat_lt, eventMessagesSize, UInt32.toNat_ofNat', hq, hzero]
      simp
    simp only [List.length_cons, List.tail_cons] at hlong hne ⊢
    omega

theorem stuck_readEvents (states : LabelStates) (fuel : ℕ) (s s' : Reading F)
    (h : Stuck s.client.eventMessages) (hrun : readEvents states fuel s = .ok true s') :
    Stuck s'.client.eventMessages := by
  induction fuel generalizing s with
  | zero => cases hrun
  | succ fuel ih =>
      unfold readEvents at hrun
      dsimp only at hrun
      -- a turn pops an event, throws, or changes nothing
      split at hrun
      next hsize =>
        split at hrun
        next hpayload =>
          split at hrun
          · exact ih _ (stuck_tail h hsize hpayload) hrun
          · cases hrun
        next => exact ih s h hrun
      next =>
        cases hrun
        exact h

/-! ## The inboxes that are drained -/

/-- When the handlers return, the loop drains the inbox exactly if no event
lacks a payload and the size of the inbox fits `uint32_t`. -/
theorem readEvents_drains_iff (states : LabelStates) (client : Client) (game : GameState UInt8 F)
    (hread : ∀ m ∈ client.eventMessages, 0 < m.message.length →
      Readable F states game.mainPlayer.inventory.length m.message) :
    Drains states client game ↔
      (∀ m ∈ client.eventMessages, m.message ≠ []) ∧ client.eventMessages.length < 2 ^ 32 := by
  constructor
  · rintro ⟨fuel, s', hrun, hnil, -⟩
    have hstuck : ¬ Stuck client.eventMessages := by
      intro h
      have h' := stuck_readEvents states fuel _ _ h hrun
      simp [Stuck, hnil] at h'
    constructor
    · intro m hm hempty
      exact hstuck (.inl ⟨m, hm, hempty⟩)
    · exact Nat.lt_of_not_le fun hlong => hstuck (.inr hlong)
  · rintro ⟨hpayload, hlen⟩
    have hpos : ∀ m ∈ client.eventMessages, 0 < m.message.length :=
      fun m hm => List.length_pos_iff.2 (hpayload m hm)
    rcases readEvents_of_payloads states client.eventMessages ⟨client, game, []⟩ rfl hlen hpos
      (fun m hm => hread m hm (hpos m hm)) with ⟨s', hrun, hnil, hpassed⟩
    refine ⟨_, s', hrun, hnil, ?_⟩
    rw [hpassed, List.nil_append]
    exact (List.filter_eq_self.2 fun m hm => by simpa using hpos m hm).symm

end loop

/-- One level message (label 2, five bytes) is read; the inbox is drained. -/
theorem readEvents_drains_iff_level :
    Drains (fun _ => none) (Client.new.receiveBody [2, 1, 2, 5, 7, 0, 0, 0, 0]) freshGame := by
  refine (readEvents_drains_iff _ _ _ ?_).2 ⟨by decide, by decide⟩
  intro m hm _
  have hm' : m = ⟨2, 1, [2, 5, 7, 0, 0, 0, 0]⟩ := List.mem_singleton.1 hm
  rw [hm']
  exact .block 2 5 [7, 0, 0, 0, 0] rfl ⟨by decide, fun h => by cases h⟩ .nil

/-- An event without payload, as the server relays it, is never drained. -/
theorem readEvents_not_drained :
    ¬ Drains (fun _ => none) (Client.new.receiveBody [2, 1]) freshGame := by
  rintro ⟨fuel, s', hrun, hnil, -⟩
  have hstuck : Stuck (Client.new.receiveBody [2, 1]).eventMessages :=
    .inl ⟨⟨2, 1, []⟩, List.mem_singleton.2 rfl, rfl⟩
  have h' := stuck_readEvents _ fuel _ _ hstuck hrun
  simp [Stuck, hnil] at h'

end HobbitSynchrony
