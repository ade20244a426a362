import HobbitSynchrony.Lib.Run
import HobbitSynchrony.SessionInbox

/-! # Snapshots between the threads

The receive thread stores snapshots while the update thread goes through the copy
it has taken. Behind every snapshot of the copy the update thread clears the
inbox itself, and with it what has arrived since.

* `SnapshotInbox`, `step`: arrivals and the steps of `readMessage`, in any order;
* `Kept`: a step takes away no snapshot that was not copied;
* `Undisturbed`: nothing has arrived when the inbox is cleared;
* `kept_iff`: they are the same in every run;
* `snapshot_lost`: an arrival between the copy and the clear.
-/

namespace HobbitSynchrony

open Transition

/-- `snapMessage`, in the order of the senders. -/
def Client.snapMessage (c : Client) : List (UInt8 × BaseMessage UInt8) :=
  ((List.range 256).map UInt8.ofNat).filterMap fun senderID =>
    (c.snapshotMessages senderID).map fun msg => (senderID, msg)

/-- Where the update thread is: before `readMessage` or at its texts, in the
event loop, before a snapshot of its copy, or behind one. A handler that throws
ends the program. -/
inductive SnapshotPoint where
  | texts
  | events
  | handle (copy : List (UInt8 × BaseMessage UInt8))
  | clear (copy : List (UInt8 × BaseMessage UInt8))
  | thrown

/-- The update thread has taken its copy, and goes through it. -/
def SnapshotPoint.HasCopy : SnapshotPoint → Prop
  | .handle _ | .clear _ => True
  | _ => False

/-- A client and its update thread in `readMessage`. As history: the number of
snapshots that have arrived, the numbers of those in the inbox and of those that
were copied, and how many had arrived at the last copy or clear. -/
structure SnapshotInbox (F : Type) where
  client : Client
  game : GameState UInt8 F
  reader : SnapshotPoint
  arrivals : ℕ
  numbers : UInt8 → ℕ
  copied : List ℕ
  mark : ℕ

namespace SnapshotInbox

/-- A message is sorted in, or the update thread takes a step. -/
inductive Action where
  | arrive (msg : BaseMessage UInt8)
  | read (states : LabelStates)

variable {F : Type}

/-- A client that has received nothing. -/
def start (game : GameState UInt8 F) : SnapshotInbox F where
  client := Client.new
  game := game
  reader := .texts
  arrivals := 0
  numbers := fun _ => 0
  copied := []
  mark := 0

/-- The number of the snapshot that is stored for a sender. -/
def stored (s : SnapshotInbox F) (senderID : UInt8) : Option ℕ :=
  (s.client.snapshotMessages senderID).map fun _ => s.numbers senderID

/-- The numbers of all stored snapshots. -/
def allStored (s : SnapshotInbox F) : List ℕ :=
  ((List.range 256).map UInt8.ofNat).filterMap s.stored

theorem mem_allStored {s : SnapshotInbox F} {n : ℕ} :
    n ∈ s.allStored ↔ ∃ senderID, s.stored senderID = some n := by
  rw [allStored, List.mem_filterMap]
  constructor
  · rintro ⟨senderID, -, h⟩
    exact ⟨senderID, h⟩
  · rintro ⟨senderID, h⟩
    refine ⟨senderID, List.mem_map.2 ⟨senderID.toNat, ?_, UInt8.ofNat_toNat⟩, h⟩
    exact List.mem_range.2 senderID.toNat_lt

/-- `sortMessageByType`; a snapshot gets the next number. -/
def arrive (msg : BaseMessage UInt8) (s : SnapshotInbox F) : SnapshotInbox F :=
  let s' := { s with client := s.client.sortMessageByType msg }
  if msg.messageType = snapshotMessage then
    { s' with
      arrivals := s.arrivals + 1
      numbers := Function.update s.numbers msg.senderID s.arrivals }
  else s'

variable [FixedWidth UInt8 F 4] [Zero F] [Add F] [LT F] [DecidableLT F]

/-- `readGameMessage` on a message, and `next` behind it. -/
def passOn (states : LabelStates) (senderID : UInt8) (message : List UInt8)
    (next : SnapshotInbox F → SnapshotInbox F) (s : SnapshotInbox F) : SnapshotInbox F :=
  match readGameMessage states senderID ⟨message, s.game⟩ with
  | .ok _ after => next { s with game := after.game }
  | .error _ after => { s with game := after.game, reader := .thrown }

/-- The next step of `readMessage`: the first text, a turn of the event loop,
the copy of the snapshots, a snapshot of the copy, or the clear behind it. -/
def readMessage (states : LabelStates) (s : SnapshotInbox F) : SnapshotInbox F :=
  match s.reader with
  | .texts =>
    if 0 < s.client.frontTextMessage.message.length then
      { s with client := s.client.popFrontTextMessage, reader := .events }
    else { s with reader := .events }
  | .events =>
    if 0 < s.client.eventMessagesSize then
      let eventMessageOpt := s.client.frontEventMessage
      if 0 < eventMessageOpt.message.length then
        s.passOn states eventMessageOpt.senderID eventMessageOpt.message fun s =>
          { s with client := s.client.popFrontEventMessage }
      else s
    else
      { s with
        reader := .handle s.client.snapMessage
        copied := s.copied ++ s.allStored
        mark := s.arrivals }
  | .handle ((senderID, message) :: copy) =>
    s.passOn states senderID message.message fun s => { s with reader := .clear copy }
  | .handle [] => { s with reader := .texts }
  | .clear copy =>
    { s with client := s.client.clearSnapMessage, mark := s.arrivals, reader := .handle copy }
  | .thrown => s

/-- A step; there is none any more when a handler has thrown. -/
def stepFn (s : SnapshotInbox F) (a : Action) : Option (SnapshotInbox F) :=
  match s.reader with
  | .thrown => none
  | _ =>
    match a with
    | .arrive msg => some (s.arrive msg)
    | .read states => some (s.readMessage states)

def step : SnapshotInbox F → Action → SnapshotInbox F → Prop := ofFn stepFn

/-- A stored snapshot stays, or a later one of its sender takes its place, or
it has been copied. -/
def Kept (s s' : SnapshotInbox F) : Prop :=
  ∀ senderID n, s.stored senderID = some n →
    s'.stored senderID = some n ∨ (∃ m, n < m ∧ s'.stored senderID = some m) ∨ n ∈ s.copied

/-- A clear finds the inbox as the copy, or the clear before it, has left it. -/
def Undisturbed (s : SnapshotInbox F) : Action → Prop
  | .arrive _ => True
  | .read _ =>
    match s.reader with
    | .clear _ => s.arrivals = s.mark
    | _ => True

/-! ## What a step does -/

/-- What the history says: the copied numbers are from before the mark, the stored
ones have arrived; behind a copy what is stored from before the mark was copied;
and the last arrival behind the mark is stored. -/
structure Numbered (s : SnapshotInbox F) : Prop where
  mark : s.mark ≤ s.arrivals
  copied : ∀ n ∈ s.copied, n < s.mark
  stored : ∀ senderID n, s.stored senderID = some n → n < s.arrivals
  behind : s.reader.HasCopy → ∀ senderID n, s.stored senderID = some n → n < s.mark → n ∈ s.copied
  last : s.mark < s.arrivals → ∃ senderID n, s.stored senderID = some n ∧ s.mark ≤ n

/-- Nothing happens to the stored snapshots and their history. -/
structure Rests (s s' : SnapshotInbox F) : Prop where
  snapshots : s'.client.snapshotMessages = s.client.snapshotMessages
  arrivals : s'.arrivals = s.arrivals
  numbers : s'.numbers = s.numbers
  copied : s'.copied = s.copied
  mark : s'.mark = s.mark
  reader : s'.reader.HasCopy → s.reader.HasCopy

omit [FixedWidth UInt8 F 4] [Zero F] [Add F] [LT F] [DecidableLT F] in
theorem Rests.stored {s s' : SnapshotInbox F} (h : Rests s s') : s'.stored = s.stored := by
  funext senderID
  rw [SnapshotInbox.stored, SnapshotInbox.stored, h.snapshots, h.numbers]

omit [FixedWidth UInt8 F 4] [Zero F] [Add F] [LT F] [DecidableLT F] in
theorem Rests.numbered {s s' : SnapshotInbox F} (h : Rests s s') (hs : s.Numbered) :
    s'.Numbered := by
  constructor
  · rw [h.mark, h.arrivals]
    exact hs.mark
  · rw [h.copied, h.mark]
    exact hs.copied
  · rw [h.stored, h.arrivals]
    exact hs.stored
  · intro hreader
    rw [h.stored, h.mark, h.copied]
    exact hs.behind (h.reader hreader)
  · rw [h.stored, h.mark, h.arrivals]
    exact hs.last

omit [FixedWidth UInt8 F 4] [Zero F] [Add F] [LT F] [DecidableLT F] in
theorem Rests.kept {s s' : SnapshotInbox F} (h : Rests s s') : Kept s s' := by
  intro senderID n hn
  rw [h.stored]
  exact .inl hn

omit [FixedWidth UInt8 F 4] [Zero F] [Add F] [LT F] [DecidableLT F] in
/-- A message leaves the snapshots as they are, or is a snapshot and takes the
place of the one of its sender. -/
theorem arrive_cases (msg : BaseMessage UInt8) (s : SnapshotInbox F) :
    Rests s (s.arrive msg) ∨
      (s.arrive msg).arrivals = s.arrivals + 1 ∧
        (s.arrive msg).stored = Function.update s.stored msg.senderID (some s.arrivals) ∧
        (s.arrive msg).copied = s.copied ∧ (s.arrive msg).mark = s.mark ∧
        (s.arrive msg).reader = s.reader := by
  unfold arrive
  dsimp only
  by_cases hsnap : msg.messageType = snapshotMessage
  · right
    have htext : ¬ msg.messageType = textMessage := by
      rw [hsnap]
      decide
    have hevent : ¬ msg.messageType = eventMessage := by
      rw [hsnap]
      decide
    rw [if_pos hsnap]
    refine ⟨rfl, ?_, rfl, rfl, rfl⟩
    funext senderID
    unfold stored Client.sortMessageByType
    rw [if_neg htext, if_neg hevent, if_pos hsnap]
    by_cases hid : senderID = msg.senderID
    · subst hid
      simp
    · simp [hid]
  · left
    rw [if_neg hsnap]
    refine ⟨?_, rfl, rfl, rfl, rfl, id⟩
    unfold Client.sortMessageByType
    rw [if_neg hsnap]
    repeat' split
    all_goals exact rfl

/-- `readGameMessage` touches no snapshot. -/
theorem rests_passOn (states : LabelStates) (senderID : UInt8) (message : List UInt8)
    {next : SnapshotInbox F → SnapshotInbox F} {s : SnapshotInbox F}
    (hnext : ∀ game, Rests s (next { s with game := game })) :
    Rests s (s.passOn states senderID message next) := by
  unfold passOn
  split
  · exact hnext _
  · exact ⟨rfl, rfl, rfl, rfl, rfl, False.elim⟩

/-- A step of `readMessage`: the copy, a clear, or neither. -/
theorem readMessage_cases (states : LabelStates) (s : SnapshotInbox F) :
    (¬ (∃ copy, s.reader = .clear copy) ∧ Rests s (s.readMessage states)) ∨
      (¬ (∃ copy, s.reader = .clear copy) ∧ s.readMessage states = { s with
        reader := .handle s.client.snapMessage
        copied := s.copied ++ s.allStored
        mark := s.arrivals }) ∨
      ∃ copy, s.reader = .clear copy ∧ s.readMessage states = { s with
        client := s.client.clearSnapMessage
        mark := s.arrivals
        reader := .handle copy } := by
  unfold readMessage
  cases hreader : s.reader with
  | texts =>
      left
      refine ⟨by simp, ?_⟩
      dsimp only
      split
      · exact ⟨rfl, rfl, rfl, rfl, rfl, False.elim⟩
      · exact ⟨rfl, rfl, rfl, rfl, rfl, False.elim⟩
  | events =>
      dsimp only
      by_cases hevents : 0 < s.client.eventMessagesSize
      · left
        refine ⟨by simp, ?_⟩
        rw [if_pos hevents]
        split
        · exact rests_passOn states _ _ fun game => ⟨rfl, rfl, rfl, rfl, rfl, id⟩
        · exact ⟨rfl, rfl, rfl, rfl, rfl, id⟩
      · right; left
        rw [if_neg hevents]
        exact ⟨by simp, rfl⟩
  | handle copy =>
      left
      have hcopy : s.reader.HasCopy := by
        rw [hreader]
        trivial
      refine ⟨by simp, ?_⟩
      cases copy with
      | nil => exact ⟨rfl, rfl, rfl, rfl, rfl, False.elim⟩
      | cons snap copy =>
          exact rests_passOn states _ _ fun game => ⟨rfl, rfl, rfl, rfl, rfl, fun _ => hcopy⟩
  | clear copy => exact .inr (.inr ⟨copy, rfl, rfl⟩)
  | thrown => exact .inl ⟨by simp, rfl, rfl, rfl, rfl, rfl, id⟩

/-- A step by its action. -/
theorem step_cases {s s' : SnapshotInbox F} {a : Action} (h : step s a s') :
    (∃ msg, a = .arrive msg ∧ s' = s.arrive msg) ∨
      ∃ states, a = .read states ∧ s' = s.readMessage states := by
  unfold step ofFn stepFn at h
  split at h
  · cases h
  · split at h
    · next msg =>
        cases h
        exact .inl ⟨msg, rfl, rfl⟩
    · next states =>
        cases h
        exact .inr ⟨states, rfl, rfl⟩

omit [FixedWidth UInt8 F 4] [Zero F] [Add F] [LT F] [DecidableLT F] in
theorem numbered_arrive {s : SnapshotInbox F} (hs : s.Numbered) (msg : BaseMessage UInt8) :
    (s.arrive msg).Numbered := by
  rcases arrive_cases msg s with hrests | ⟨harrivals, hstored, hcopied, hmark, hreader⟩
  · exact hrests.numbered hs
  · have hmarked := hs.mark
    constructor
    · rw [hmark, harrivals]
      omega
    · rw [hcopied, hmark]
      exact hs.copied
    · intro senderID n hn
      rw [harrivals]
      rw [hstored, Function.update_apply] at hn
      split at hn
      · obtain rfl := Option.some.inj hn
        exact Nat.lt_succ_self _
      · exact (hs.stored senderID n hn).trans (Nat.lt_succ_self _)
    · intro hcopy senderID n hn hlt
      rw [hreader] at hcopy
      rw [hmark] at hlt
      rw [hcopied]
      rw [hstored, Function.update_apply] at hn
      split at hn
      · -- the arrival itself is behind the mark
        obtain rfl := Option.some.inj hn
        omega
      · exact hs.behind hcopy senderID n hn hlt
    · intro _
      refine ⟨msg.senderID, s.arrivals, ?_, ?_⟩
      · rw [hstored, Function.update_self]
      · rw [hmark]
        exact hmarked

theorem numbered_step {s s' : SnapshotInbox F} {a : Action} (hs : s.Numbered)
    (h : step s a s') : s'.Numbered := by
  rcases step_cases h with ⟨msg, -, rfl⟩ | ⟨states, -, rfl⟩
  · exact numbered_arrive hs msg
  · rcases readMessage_cases states s with ⟨-, hrests⟩ | ⟨-, hcopy⟩ | ⟨copy, -, hclear⟩
    · exact hrests.numbered hs
    · -- everything that is stored is copied, and the mark is moved behind it
      rw [hcopy]
      refine ⟨le_rfl, ?_, hs.stored, ?_, fun hlt => absurd hlt (lt_irrefl _)⟩
      · intro n hn
        rcases List.mem_append.1 hn with hold | hnew
        · exact (hs.copied n hold).trans_le hs.mark
        · rcases mem_allStored.1 hnew with ⟨senderID, hn⟩
          exact hs.stored senderID n hn
      · intro _ senderID n hn _
        exact List.mem_append_right _ (mem_allStored.2 ⟨senderID, hn⟩)
    · -- nothing is stored
      rw [hclear]
      refine ⟨le_rfl, ?_, ?_, ?_, fun hlt => absurd hlt (lt_irrefl _)⟩
      · exact fun n hn => (hs.copied n hn).trans_le hs.mark
      · intro senderID n hn
        cases hn
      · intro _ senderID n hn
        cases hn

omit [FixedWidth UInt8 F 4] [Zero F] [Add F] [LT F] [DecidableLT F] in
theorem undisturbed_of_not_clear {s : SnapshotInbox F} (h : ¬ ∃ copy, s.reader = .clear copy)
    (a : Action) : s.Undisturbed a := by
  cases a with
  | arrive msg => trivial
  | read states =>
      rw [Undisturbed]
      cases hreader : s.reader with
      | clear copy => exact absurd ⟨copy, hreader⟩ h
      | _ => trivial

/-- A step takes away only what was copied if, and only if, a clear finds nothing
that has arrived. -/
theorem kept_step_iff {s s' : SnapshotInbox F} {a : Action} (hs : s.Numbered)
    (h : step s a s') : Kept s s' ↔ s.Undisturbed a := by
  rcases step_cases h with ⟨msg, rfl, rfl⟩ | ⟨states, rfl, rfl⟩
  · refine iff_of_true ?_ trivial
    rcases arrive_cases msg s with hrests | ⟨-, hstored, -, -, -⟩
    · exact hrests.kept
    · intro senderID n hn
      rw [hstored, Function.update_apply]
      by_cases hid : senderID = msg.senderID
      · exact .inr (.inl ⟨s.arrivals, hs.stored senderID n hn, if_pos hid⟩)
      · exact .inl ((if_neg hid).trans hn)
  · rcases readMessage_cases states s with ⟨hreader, hrests⟩ | ⟨hreader, hcopy⟩ |
      ⟨copy, hreader, hclear⟩
    · exact iff_of_true hrests.kept (undisturbed_of_not_clear hreader _)
    · refine iff_of_true ?_ (undisturbed_of_not_clear hreader _)
      rw [hcopy]
      exact fun senderID n hn => .inl hn
    · have hcopy : s.reader.HasCopy := by
        rw [hreader]
        trivial
      rw [hclear, Undisturbed, hreader]
      constructor
      · intro hkept
        by_contra hne
        have hlt : s.mark < s.arrivals := lt_of_le_of_ne hs.mark (Ne.symm hne)
        rcases hs.last hlt with ⟨senderID, n, hn, hmark⟩
        rcases hkept senderID n hn with hsame | ⟨m, -, hlater⟩ | hcopied
        · cases hsame
        · cases hlater
        · exact absurd (hs.copied n hcopied) (Nat.not_lt.2 hmark)
      · intro hmark senderID n hn
        have hlt := hs.stored senderID n hn
        rw [hmark] at hlt
        exact .inr (.inr (hs.behind hcopy senderID n hn hlt))

/-! ## Runs -/

omit [FixedWidth UInt8 F 4] [Zero F] [Add F] [LT F] [DecidableLT F] in
theorem numbered_start (game : GameState UInt8 F) : (start game).Numbered := by
  refine ⟨le_rfl, ?_, ?_, ?_, fun hlt => absurd hlt (lt_irrefl _)⟩
  · intro n hn
    cases hn
  · intro senderID n hn
    cases hn
  · exact False.elim

/-- No snapshot is lost in a run if, and only if, none arrives between a copy and
the clears behind it. -/
theorem kept_iff (game : GameState UInt8 F) (as : List Action) :
    EveryStep step (start game) as (fun s _ s' => Kept s s') ↔
      EveryStep step (start game) as fun s a _ => s.Undisturbed a := by
  refine everyStep_iff Numbered (fun s _ s' => Kept s s') (fun s a _ => s.Undisturbed a)
    (numbered_start game) ?_ ?_
  · exact fun s a s' hs hstep _ => numbered_step hs hstep
  · exact fun s a s' hs hstep => kept_step_iff hs hstep

/-! ## A snapshot that is cleared -/

/-- A snapshot that can be read is handled, and the clear is next. -/
theorem readMessage_handle {states : LabelStates} {s : SnapshotInbox F} {senderID : UInt8}
    {msg : BaseMessage UInt8} {copy : List (UInt8 × BaseMessage UInt8)}
    (hreader : s.reader = .handle ((senderID, msg) :: copy))
    (hread : Readable F states s.game.mainPlayer.inventory.length msg.message) :
    ∃ game, s.readMessage states = { s with game := game, reader := .clear copy } := by
  rcases (readGameMessage_returns_iff states senderID msg.message s.game).2 hread with
    ⟨after, hafter⟩
  refine ⟨after.game, ?_⟩
  unfold readMessage
  rw [hreader]
  dsimp only
  rw [passOn, hafter]

/-- A snapshot of player `senderID`. -/
def snapOf (senderID : UInt8) : BaseMessage UInt8 :=
  { messageType := snapshotMessage, senderID := senderID
    message := 1 :: 30 :: List.replicate 30 0 }

/-- The snapshot of player 2 arrives when that of player 1 has been handled, and
is cleared with it. -/
theorem snapshot_lost : ¬ ∀ as, EveryStep step (start freshGame) as fun s _ s' => Kept s s' := by
  intro hall
  let states : LabelStates := fun _ => none
  let stored := (start freshGame).arrive (snapOf 1)
  let copied := (stored.readMessage states).readMessage states
  have hreadable : Readable UInt32 states copied.game.mainPlayer.inventory.length
      (snapOf 1).message :=
    .block 1 30 (List.replicate 30 0) rfl ⟨by decide, fun h => by cases h⟩ .nil
  obtain ⟨copy, hreader⟩ : ∃ copy, copied.reader = .handle ((1, snapOf 1) :: copy) := ⟨_, rfl⟩
  rcases readMessage_handle hreader hreadable with ⟨game, hhandled⟩
  let behind : SnapshotInbox UInt32 := { copied with game := game, reader := .clear copy }
  have hstored : step (start freshGame) (.arrive (snapOf 1)) stored := rfl
  have htexts : step stored (.read states) (stored.readMessage states) := rfl
  have hcopied : step (stored.readMessage states) (.read states) copied := rfl
  have hhandle : step copied (.read states) behind := congrArg some hhandled
  have harrive : step behind (.arrive (snapOf 2)) (behind.arrive (snapOf 2)) := rfl
  have hclear : step (behind.arrive (snapOf 2)) (.read states) _ := rfl
  have hrun := ((((Run.single hstored).snoc htexts).snoc hcopied).snoc hhandle).snoc harrive
  have hkept := hall (_ ++ [.read states]) _ _ _ _ List.prefix_rfl hrun hclear
  have hnumbered : Numbered (behind.arrive (snapOf 2)) :=
    hrun.invariant (fun _ _ _ hstep hs => numbered_step hs hstep) (numbered_start freshGame)
  -- two snapshots have arrived, one of them before the copy
  have hsame : (2 : ℕ) = 1 := (kept_step_iff hnumbered hclear).1 hkept
  cases hsame

end SnapshotInbox

end HobbitSynchrony
