import HobbitSynchrony.Lib.Run
import HobbitSynchrony.EventInbox

/-! # The inboxes across connections

The three inboxes of `Client` are filled by `receiveMessages` and emptied by
`HobbitClient::readMessage` only. `connectToServer` and `disconnect` leave them
as they are.

* `SessionInbox`, `step`: connects, disconnects, frames and the steps of
  `readMessage`, in any order;
* `matched_run`: the history says of every queued message where it is from;
* `noLeak_guarded`: no message is passed on in a later connection if the inboxes
  are empty at every connect;
* `stale_event_passed`: a message of an earlier connection.
-/

namespace HobbitSynchrony

open Transition

namespace Client

/-- `frontTextMessage`; `BaseMessage(-1, -1)` if there is none. -/
def frontTextMessage (c : Client) : BaseMessage UInt8 :=
  c.textMessages.headD { messageType := 255, senderID := 255, message := [] }

/-- `popFrontTextMessage`. -/
def popFrontTextMessage (c : Client) : Client :=
  { c with textMessages := c.textMessages.tail }

/-- `clearSnapMessage`. -/
def clearSnapMessage (c : Client) : Client :=
  { c with snapshotMessages := fun _ => none }

end Client

/-- Where the update thread is: before `readMessage` or at its texts, in the
event loop, or going through its copy of the snapshots, each with the connection
it is from. A handler that throws ends the program. -/
inductive ReadPoint where
  | texts
  | events
  | snapshots (copy : List (UInt8 × BaseMessage UInt8 × ℕ))
  | thrown

/-- The snapshots that the update thread has copied and not passed on yet. -/
def ReadPoint.copied : ReadPoint → List (UInt8 × BaseMessage UInt8 × ℕ)
  | .snapshots copy => copy
  | _ => []

/-- A message that was logged or passed to `readGameMessage`, with the
connection it was received on and the connection at that time. -/
structure Passed where
  message : BaseMessage UInt8
  origin : ℕ
  connection : ℕ

/-- A client and its update thread in `readMessage`. As history: the number of
connects so far, the connections of the queued messages, and what was passed
on. -/
structure SessionInbox (F : Type) where
  client : Client
  game : GameState UInt8 F
  reader : ReadPoint
  connection : ℕ
  textOrigins : List ℕ
  eventOrigins : List ℕ
  snapshotOrigins : UInt8 → ℕ
  passed : List Passed

namespace SessionInbox

/-- What the threads and the user can do. A frame has the connection of the
socket it is read from: a receive thread may outlive its connection. -/
inductive Action where
  | connect (success : Bool)
  | disconnect
  | frame (origin : ℕ) (buffer : List UInt8)
  | read (states : LabelStates)

variable {F : Type}

/-- A client that was never connected. -/
def start (game : GameState UInt8 F) : SessionInbox F where
  client := Client.new
  game := game
  reader := .texts
  connection := 0
  textOrigins := []
  eventOrigins := []
  snapshotOrigins := fun _ => 0
  passed := []

/-- What `connectToServer` does to the members. -/
def connectToServer (success : Bool) (s : SessionInbox F) : SessionInbox F :=
  if success then
    { s with client := { s.client with isConnected := true }, connection := s.connection + 1 }
  else s

/-- What `disconnect` does to the members. -/
def disconnect (s : SessionInbox F) : SessionInbox F :=
  { s with client := { s.client with isConnected := false } }

/-- `receiveMessages` on the body of a frame, with the history of the inbox the
message is put into. -/
def receive (origin : ℕ) (buffer : List UInt8) (s : SessionInbox F) : SessionInbox F :=
  let s' := { s with client := s.client.receiveBody buffer }
  match deserializeMessage buffer with
  | none => s'
  | some msg =>
    if msg.messageType = textMessage then { s' with textOrigins := s.textOrigins ++ [origin] }
    else if msg.messageType = eventMessage then
      { s' with eventOrigins := s.eventOrigins ++ [origin] }
    else if msg.messageType = snapshotMessage then
      { s' with snapshotOrigins := Function.update s.snapshotOrigins msg.senderID origin }
    else s'

/-- The copy `client.snapMessage()`, in the order of the senders. -/
def snapMessage (s : SessionInbox F) : List (UInt8 × BaseMessage UInt8 × ℕ) :=
  ((List.range 256).map UInt8.ofNat).filterMap fun senderID =>
    (s.client.snapshotMessages senderID).map fun msg =>
      (senderID, msg, s.snapshotOrigins senderID)

/-! ## What a frame does -/

/-- The history has a connection for every queued text and event. -/
structure Matched (s : SessionInbox F) : Prop where
  texts : s.textOrigins.length = s.client.textMessages.length
  events : s.eventOrigins.length = s.client.eventMessages.length

/-- A message of connection `k` is queued, or copied and not passed on yet. -/
def Held (s : SessionInbox F) (k : ℕ) : Prop :=
  k ∈ s.textOrigins ∨ k ∈ s.eventOrigins ∨
    (∃ senderID, s.client.snapshotMessages senderID ≠ none ∧ s.snapshotOrigins senderID = k) ∨
      ∃ snap ∈ s.reader.copied, snap.2.2 = k

theorem matched_receive {s : SessionInbox F} (h : s.Matched) (origin : ℕ) (buffer : List UInt8) :
    (s.receive origin buffer).Matched := by
  unfold receive Client.receiveBody Client.sortMessageByType
  cases deserializeMessage buffer with
  | none => exact ⟨h.texts, h.events⟩
  | some msg =>
      dsimp only
      by_cases htext : msg.messageType = textMessage
      · simp only [htext, textMessage, clientListMessage]
        exact ⟨by simpa using h.texts, h.events⟩
      · by_cases hevent : msg.messageType = eventMessage
        · simp only [hevent, textMessage, eventMessage, clientListMessage]
          exact ⟨h.texts, by simpa using h.events⟩
        · simp only [htext, hevent, if_false]
          repeat' split
          all_goals exact ⟨h.texts, h.events⟩

theorem held_receive {s : SessionInbox F} {origin k : ℕ} {buffer : List UInt8}
    (h : (s.receive origin buffer).Held k) : s.Held k ∨ k = origin := by
  unfold receive Client.receiveBody Client.sortMessageByType at h
  cases hmsg : deserializeMessage buffer with
  | none =>
      rw [hmsg] at h
      exact .inl h
  | some msg =>
      rw [hmsg] at h
      dsimp only at h
      by_cases htext : msg.messageType = textMessage
      · simp only [htext, textMessage, clientListMessage] at h
        rcases h with htexts | hrest
        · rcases List.mem_append.1 htexts with hold | hnew
          · exact .inl (.inl hold)
          · exact .inr (List.mem_singleton.1 hnew)
        · exact .inl (.inr hrest)
      · by_cases hevent : msg.messageType = eventMessage
        · simp only [hevent, textMessage, eventMessage, clientListMessage] at h
          rcases h with htexts | hevents | hrest
          · exact .inl (.inl htexts)
          · rcases List.mem_append.1 hevents with hold | hnew
            · exact .inl (.inr (.inl hold))
            · exact .inr (List.mem_singleton.1 hnew)
          · exact .inl (.inr (.inr hrest))
        · by_cases hsnap : msg.messageType = snapshotMessage
          · simp only [hsnap, textMessage, eventMessage, snapshotMessage, clientListMessage] at h
            rcases h with htexts | hevents | hsnaps | hcopied
            · exact .inl (.inl htexts)
            · exact .inl (.inr (.inl hevents))
            · -- the snapshot of the sender is replaced, with its connection
              rcases hsnaps with ⟨senderID, hsome, hk⟩
              by_cases hid : senderID = msg.senderID
              · subst hid
                right
                simpa using hk.symm
              · left; right; right; left
                exact ⟨senderID, by simpa [hid] using hsome, by simpa [hid] using hk⟩
            · exact .inl (.inr (.inr (.inr hcopied)))
          · -- a client list or an ID is not queued
            left
            simp only [htext, hevent, hsnap, if_false] at h
            repeat' split at h
            all_goals exact h

theorem receive_history (origin : ℕ) (buffer : List UInt8) (s : SessionInbox F) :
    (s.receive origin buffer).connection = s.connection ∧
      (s.receive origin buffer).passed = s.passed := by
  unfold receive
  cases deserializeMessage buffer with
  | none => exact ⟨rfl, rfl⟩
  | some msg =>
      dsimp only
      repeat' split
      all_goals exact ⟨rfl, rfl⟩

/-- Nothing is queued, and nothing is copied. -/
structure Drained (s : SessionInbox F) : Prop where
  texts : s.client.textMessages = []
  events : s.client.eventMessages = []
  snapshots : ∀ senderID, s.client.snapshotMessages senderID = none
  copied : s.reader.copied = []

theorem not_held_of_drained {s : SessionInbox F} (hs : s.Matched) (h : s.Drained) (k : ℕ) :
    ¬ s.Held k := by
  have htexts : s.textOrigins = [] := List.length_eq_zero_iff.1 (by rw [hs.texts, h.texts]; rfl)
  have hevents : s.eventOrigins = [] := List.length_eq_zero_iff.1 (by rw [hs.events, h.events]; rfl)
  unfold Held
  rw [htexts, hevents, h.copied]
  simp [h.snapshots]

/-! ## Reading -/

variable [FixedWidth UInt8 F 4] [Zero F] [Add F] [LT F] [DecidableLT F]

/-- `readGameMessage` on a message, and `next` behind it. -/
def passOn (states : LabelStates) (senderID : UInt8) (message : BaseMessage UInt8) (origin : ℕ)
    (next : SessionInbox F → SessionInbox F) (s : SessionInbox F) : SessionInbox F :=
  let s : SessionInbox F := { s with passed := s.passed ++ [⟨message, origin, s.connection⟩] }
  match readGameMessage states senderID ⟨message.message, s.game⟩ with
  | .ok _ after => next { s with game := after.game }
  | .error _ after => { s with game := after.game, reader := .thrown }

/-- The next step of `readMessage`: the first text, a turn of the event loop,
or a snapshot of the copy. -/
def readMessage (states : LabelStates) (s : SessionInbox F) : SessionInbox F :=
  match s.reader with
  | .texts =>
    let textMessageOpt := s.client.frontTextMessage
    if 0 < textMessageOpt.message.length then
      { s with
        passed := s.passed ++ [⟨textMessageOpt, s.textOrigins.headD 0, s.connection⟩]
        client := s.client.popFrontTextMessage
        textOrigins := s.textOrigins.tail
        reader := .events }
    else { s with reader := .events }
  | .events =>
    if 0 < s.client.eventMessagesSize then
      let eventMessageOpt := s.client.frontEventMessage
      if 0 < eventMessageOpt.message.length then
        s.passOn states eventMessageOpt.senderID eventMessageOpt (s.eventOrigins.headD 0) fun s =>
          { s with
            client := s.client.popFrontEventMessage
            eventOrigins := s.eventOrigins.tail }
      else s
    else { s with reader := .snapshots s.snapMessage }
  | .snapshots ((senderID, message, origin) :: copy) =>
    s.passOn states senderID message origin fun s =>
      { s with client := s.client.clearSnapMessage, reader := .snapshots copy }
  | .snapshots [] => { s with reader := .texts }
  | .thrown => s

/-- A step; there is none any more when a handler has thrown. -/
def stepFn (s : SessionInbox F) (a : Action) : Option (SessionInbox F) :=
  match s.reader with
  | .thrown => none
  | _ =>
    match a with
    | .connect success => some (s.connectToServer success)
    | .disconnect => some s.disconnect
    | .frame origin buffer =>
      if 1 ≤ origin ∧ origin ≤ s.connection then some (s.receive origin buffer) else none
    | .read states => some (s.readMessage states)

def step : SessionInbox F → Action → SessionInbox F → Prop := ofFn stepFn

/-- Everything that was passed on was received on the connection of that time. -/
def NoLeak (s : SessionInbox F) : Prop := ∀ p ∈ s.passed, p.origin = p.connection

/-! ## What a step does -/

/-- `readGameMessage` returns or throws, and the message was passed on. -/
theorem passOn_cases (states : LabelStates) (senderID : UInt8) (message : BaseMessage UInt8)
    (origin : ℕ) (next : SessionInbox F → SessionInbox F) (s : SessionInbox F) :
    ∃ game, s.passOn states senderID message origin next =
        next { s with passed := s.passed ++ [⟨message, origin, s.connection⟩], game := game } ∨
      s.passOn states senderID message origin next =
        { s with
          passed := s.passed ++ [⟨message, origin, s.connection⟩]
          game := game
          reader := .thrown } := by
  unfold passOn
  dsimp only
  split
  · next after hread => exact ⟨after.game, .inl rfl⟩
  · next e after hread => exact ⟨after.game, .inr rfl⟩

/-- A step of `readMessage` from `s`: it queues nothing, and what it passes on
was held. -/
structure Reads (s s' : SessionInbox F) : Prop where
  matched : s'.Matched
  held : ∀ k, s'.Held k → s.Held k
  connection : s'.connection = s.connection
  passed : s'.passed = s.passed ∨
    ∃ p : Passed, s'.passed = s.passed ++ [p] ∧ s.Held p.origin ∧ p.connection = s.connection

theorem reads_passOn (states : LabelStates) (senderID : UInt8) {message : BaseMessage UInt8}
    {origin : ℕ} {next : SessionInbox F → SessionInbox F} {s : SessionInbox F} (hs : s.Matched)
    (horigin : s.Held origin)
    (hnext : ∀ passed game, (next { s with passed := passed, game := game }).Matched ∧
      (∀ k, (next { s with passed := passed, game := game }).Held k → s.Held k) ∧
      (next { s with passed := passed, game := game }).connection = s.connection ∧
      (next { s with passed := passed, game := game }).passed = passed) :
    s.Reads (s.passOn states senderID message origin next) := by
  rcases passOn_cases states senderID message origin next s with ⟨game, hpass | hthrown⟩
  · rw [hpass]
    rcases hnext (s.passed ++ [⟨message, origin, s.connection⟩]) game with
      ⟨hmatched, hheld, hconnection, hpassed⟩
    exact ⟨hmatched, hheld, hconnection, .inr ⟨_, hpassed, horigin, rfl⟩⟩
  · rw [hthrown]
    refine ⟨⟨hs.texts, hs.events⟩, ?_, rfl, .inr ⟨_, rfl, horigin, rfl⟩⟩
    rintro k (htexts | hevents | hsnaps | ⟨snap, hcopied, -⟩)
    · exact .inl htexts
    · exact .inr (.inl hevents)
    · exact .inr (.inr (.inl hsnaps))
    · cases hcopied

/-- The first element of a list of the length of another list that is not empty. -/
theorem headD_mem {α : Type} {xs : List ℕ} {ys : List α} (hlength : xs.length = ys.length)
    (hys : ys ≠ []) : xs.headD 0 ∈ xs := by
  cases xs with
  | nil => exact absurd (List.length_eq_zero_iff.1 hlength.symm) hys
  | cons x xs => simp

theorem reads_readMessage (states : LabelStates) {s : SessionInbox F} (hs : s.Matched) :
    s.Reads (s.readMessage states) := by
  have hrest : ∀ point : ReadPoint, point.copied = [] → s.Reads { s with reader := point } := by
    intro point hpoint
    refine ⟨⟨hs.texts, hs.events⟩, ?_, rfl, .inl rfl⟩
    rintro k (htexts | hevents | hsnaps | ⟨snap, hcopied, -⟩)
    · exact .inl htexts
    · exact .inr (.inl hevents)
    · exact .inr (.inr (.inl hsnaps))
    · dsimp only at hcopied
      rw [hpoint] at hcopied
      cases hcopied
  unfold readMessage
  split
  · next hreader =>
      -- the first text
      dsimp only
      split
      · next hpayload =>
          have hne : s.client.textMessages ≠ [] := by
            intro hnil
            simp [Client.frontTextMessage, hnil] at hpayload
          have hmem := headD_mem hs.texts hne
          refine ⟨⟨?_, hs.events⟩, ?_, rfl, .inr ⟨_, rfl, .inl hmem, rfl⟩⟩
          · simp [Client.popFrontTextMessage, hs.texts]
          · rintro k (htexts | hevents | hsnaps | ⟨snap, hcopied, -⟩)
            · exact .inl (List.mem_of_mem_tail htexts)
            · exact .inr (.inl hevents)
            · exact .inr (.inr (.inl hsnaps))
            · cases hcopied
      · exact hrest .events rfl
  · next hreader =>
      -- a turn of the event loop
      split
      · dsimp only
        split
        · next hpayload =>
            have hne : s.client.eventMessages ≠ [] := by
              intro hnil
              simp [Client.frontEventMessage, hnil] at hpayload
            have hmem := headD_mem hs.events hne
            apply reads_passOn states _ hs (.inr (.inl hmem))
            intro passed game
            refine ⟨⟨hs.texts, ?_⟩, ?_, rfl, rfl⟩
            · simp [Client.popFrontEventMessage, hs.events]
            · rintro k (htexts | hevents | hsnaps | hcopied)
              · exact .inl htexts
              · exact .inr (.inl (List.mem_of_mem_tail hevents))
              · exact .inr (.inr (.inl hsnaps))
              · exact .inr (.inr (.inr hcopied))
        · exact ⟨hs, fun _ => id, rfl, .inl rfl⟩
      · -- the snapshots are copied, with their connections
        refine ⟨⟨hs.texts, hs.events⟩, ?_, rfl, .inl rfl⟩
        rintro k (htexts | hevents | hsnaps | ⟨snap, hcopied, rfl⟩)
        · exact .inl htexts
        · exact .inr (.inl hevents)
        · exact .inr (.inr (.inl hsnaps))
        · rcases List.mem_filterMap.1 hcopied with ⟨senderID, -, hsome⟩
          rcases Option.map_eq_some_iff.1 hsome with ⟨msg, hmsg, rfl⟩
          exact .inr (.inr (.inl ⟨senderID, by simp [hmsg], rfl⟩))
  · next senderID message origin copy hreader =>
      -- a snapshot of the copy
      have hcopied : (senderID, message, origin) ∈ s.reader.copied := by
        rw [hreader]
        exact List.mem_cons_self
      apply reads_passOn states senderID hs (.inr (.inr (.inr ⟨_, hcopied, rfl⟩)))
      intro passed game
      refine ⟨⟨hs.texts, hs.events⟩, ?_, rfl, rfl⟩
      rintro k (htexts | hevents | ⟨id, hsome, -⟩ | ⟨snap, hcopy, hk⟩)
      · exact .inl htexts
      · exact .inr (.inl hevents)
      · exact absurd rfl hsome
      · right; right; right
        refine ⟨snap, ?_, hk⟩
        rw [hreader]
        exact List.mem_cons_of_mem _ hcopy
  · exact hrest .texts rfl
  · exact ⟨hs, fun _ => id, rfl, .inl rfl⟩

/-- A step by its action. -/
theorem step_cases {s s' : SessionInbox F} {a : Action} (h : step s a s') :
    (∃ success, a = .connect success ∧ s' = s.connectToServer success) ∨
      (a = .disconnect ∧ s' = s.disconnect) ∨
      (∃ origin buffer, a = .frame origin buffer ∧ s' = s.receive origin buffer) ∨
      ∃ states, a = .read states ∧ s' = s.readMessage states := by
  unfold step ofFn stepFn at h
  split at h
  · cases h
  · split at h
    · next success =>
        cases h
        exact .inl ⟨success, rfl, rfl⟩
    · cases h
      exact .inr (.inl ⟨rfl, rfl⟩)
    · next origin buffer =>
        rw [Option.ite_none_right_eq_some] at h
        cases h.2
        exact .inr (.inr (.inl ⟨origin, buffer, rfl, rfl⟩))
    · next states =>
        cases h
        exact .inr (.inr (.inr ⟨states, rfl, rfl⟩))

theorem matched_step {s s' : SessionInbox F} {a : Action} (hs : s.Matched) (h : step s a s') :
    s'.Matched := by
  rcases step_cases h with ⟨success, -, rfl⟩ | ⟨-, rfl⟩ | ⟨origin, buffer, -, rfl⟩ |
    ⟨states, -, rfl⟩
  · unfold connectToServer
    split
    · exact ⟨hs.texts, hs.events⟩
    · exact hs
  · exact ⟨hs.texts, hs.events⟩
  · exact matched_receive hs origin buffer
  · exact (reads_readMessage states hs).matched

/-- In every run the history has a connection for every queued message. -/
theorem matched_run {game : GameState UInt8 F} {as : List Action} {s : SessionInbox F}
    (h : Run step (start game) as s) : s.Matched :=
  h.invariant (fun _ _ _ hstep hs => matched_step hs hstep) ⟨rfl, rfl⟩

/-! ## Runs without a leak -/

/-- A connect finds nothing from before, and a frame is one of the current
connection. -/
def Fresh (s : SessionInbox F) : Action → Prop
  | .connect success => success = true → s.Drained
  | .frame origin _ => origin = s.connection
  | _ => True

/-- The invariant: what is held is of the current connection, and so was what
was passed on. -/
structure Current (s : SessionInbox F) : Prop where
  matched : s.Matched
  held : ∀ k, s.Held k → k = s.connection
  passed : s.NoLeak

theorem current_step {s s' : SessionInbox F} {a : Action} (hs : s.Current)
    (h : Guarded step Fresh s a s') : s'.Current := by
  rcases h with ⟨hstep, hfresh⟩
  have hmatched := matched_step hs.matched hstep
  rcases step_cases hstep with ⟨success, rfl, rfl⟩ | ⟨rfl, rfl⟩ | ⟨origin, buffer, rfl, rfl⟩ |
    ⟨states, rfl, rfl⟩
  · cases success with
    | false => exact hs
    | true =>
        refine ⟨hmatched, ?_, hs.passed⟩
        intro k hk
        exact absurd hk (not_held_of_drained hs.matched (hfresh rfl) k)
  · exact ⟨hmatched, hs.held, hs.passed⟩
  · have hhistory := receive_history origin buffer s
    refine ⟨hmatched, ?_, ?_⟩
    · intro k hk
      rw [hhistory.1]
      rcases held_receive hk with hold | hnew
      · exact hs.held k hold
      · exact hnew.trans hfresh
    · unfold NoLeak
      rw [hhistory.2]
      exact hs.passed
  · have hreads := reads_readMessage states hs.matched
    refine ⟨hmatched, ?_, ?_⟩
    · intro k hk
      rw [hreads.connection]
      exact hs.held k (hreads.held k hk)
    · rcases hreads.passed with hsame | ⟨p, hnew, hheld, hconnection⟩
      · unfold NoLeak
        rw [hsame]
        exact hs.passed
      · intro q hq
        rw [hnew] at hq
        rcases List.mem_append.1 hq with hold | hlast
        · exact hs.passed q hold
        · rw [List.mem_singleton.1 hlast, hconnection]
          exact hs.held p.origin hheld

/-- Nothing that was received on an earlier connection is passed on, as long as
the inboxes are empty at every connect and no frame of an earlier connection
comes in. -/
theorem noLeak_guarded {game : GameState UInt8 F} {as : List Action} {s : SessionInbox F}
    (h : Run (Guarded step Fresh) (start game) as s) : s.NoLeak := by
  have hstart : (start game).Current := by
    refine ⟨⟨rfl, rfl⟩, ?_, ?_⟩
    · intro k hk
      exact absurd hk (not_held_of_drained ⟨rfl, rfl⟩ ⟨rfl, rfl, fun _ => rfl, rfl⟩ k)
    · intro p hp
      cases hp
  exact (h.invariant (fun _ _ _ hstep hs => current_step hs hstep) hstart).passed

/-- A text is logged, and the next connection starts with empty inboxes. -/
theorem noLeak_text : ∃ s : SessionInbox UInt32,
    Run (Guarded step Fresh) (start freshGame) [.connect true, .frame 1 [1, 7, 104, 105],
      .read fun _ => none, .disconnect, .connect true] s ∧ s.passed ≠ [] ∧ s.NoLeak := by
  let first := (start freshGame).connectToServer true
  let queued := first.receive 1 [1, 7, 104, 105]
  let logged := queued.readMessage fun _ => none
  have hconnect : Guarded step Fresh (start freshGame) (.connect true) first :=
    ⟨rfl, fun _ => ⟨rfl, rfl, fun _ => rfl, rfl⟩⟩
  have hframe : Guarded step Fresh first (.frame 1 [1, 7, 104, 105]) queued := ⟨rfl, rfl⟩
  have hread : Guarded step Fresh queued (.read fun _ => none) logged := ⟨rfl, trivial⟩
  have hdisconnect : Guarded step Fresh logged .disconnect logged.disconnect := ⟨rfl, trivial⟩
  have hagain : Guarded step Fresh logged.disconnect (.connect true)
      (logged.disconnect.connectToServer true) :=
    ⟨rfl, fun _ => ⟨rfl, rfl, fun _ => rfl, rfl⟩⟩
  have hrun := ((((Run.single hconnect).snoc hframe).snoc hread).snoc hdisconnect).snoc hagain
  exact ⟨_, hrun, List.cons_ne_nil _ _, noLeak_guarded hrun⟩

/-- An event of the first connection is passed on in the second one. -/
theorem stale_event_passed :
    ¬ ∀ as (s : SessionInbox UInt32), Run step (start freshGame) as s → s.NoLeak := by
  intro h
  let again := (((start freshGame).connectToServer true).receive 1
    [2, 1, 2, 5, 7, 0, 0, 0, 0]).disconnect.connectToServer true
  let read := (again.readMessage fun _ => none).readMessage fun _ => none
  have hrun : Run step (start freshGame) [.connect true, .frame 1 [2, 1, 2, 5, 7, 0, 0, 0, 0],
      .disconnect, .connect true, .read fun _ => none, .read fun _ => none] read :=
    run_of_exec rfl
  have hstale := h _ _ hrun ⟨⟨2, 1, [2, 5, 7, 0, 0, 0, 0]⟩, 1, 2⟩ List.mem_cons_self
  cases hstale

end SessionInbox

end HobbitSynchrony
