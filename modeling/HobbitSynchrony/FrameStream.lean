import HobbitSynchrony.Lib.ByteStream
import HobbitSynchrony.Client

/-! # Frames in a byte stream

The receiving loops of `Client::receiveMessages` and `Server::handleClient`,
over a stream that `recv` may split anywhere. Both loops read four bytes of
length with one `recv`, and then as many bytes as the length says with as many
calls as it takes.

* `receiveLoop`: the loop, with what is done with a body as a parameter;
* `receiveMessages`, `handleClient`: the two uses of it;
* `receiveLoop_frames`: frames whose length comes in one piece are read as they
  were sent;
* `receive_frames`: so every message is handed on, in order;
* `handed_on_differs`: a sender that is overwritten, and a length that comes in
  two pieces.
-/

namespace HobbitSynchrony

open LittleEndian ByteStream

/-- Where a receiving loop stopped: at the length or in the body. -/
inductive Ending where
  | header
  | body
deriving DecidableEq, Repr

/-- The bytes of `msgSize`, which the loop does not initialise, after `recv`
wrote `bytes` over its first ones. -/
def fillHeader (stale : UInt32) (bytes : List UInt8) : List UInt8 :=
  bytes ++ (leBytes 4 stale.toNat).drop bytes.length

/-- The receiving loop: read a length with one `recv`, then the body, then
`handle` it. `stale n` is what was in `msgSize` when `n` bytes were left. -/
def receiveLoop {σ : Type} (sp : Splitting) (stale : ℕ → UInt32) (handle : σ → List UInt8 → σ)
    (s : σ) (left : List UInt8) : σ × Ending :=
  let bytesReceived := sp.size 4 left.length
  if bytesReceived = 0 then (s, .header)
  else
    -- the count `recv` returns is not compared with 4
    let msgSize := frameSize (fillHeader (stale left.length) (left.take bytesReceived))
    match _hread : readFull sp msgSize [] (left.drop bytesReceived) with
    | none => (s, .body)
    | some (buffer, rest) => receiveLoop sp stale handle (handle s buffer) rest
termination_by left.length
decreasing_by
  have hrest := length_le_of_readFull _hread
  have hleft := sp.size_le_left 4 left.length
  rw [List.length_drop] at hrest
  omega

/-- `Client::disconnect`; the receiving thread is detached. -/
def Client.disconnect (c : Client) : Client := { c with isConnected := false }

/-- What `receiveMessages` does with a body. The first component is history:
the messages handed on. -/
def Client.handOn (s : List (BaseMessage UInt8) × Client) (buffer : List UInt8) :
    List (BaseMessage UInt8) × Client :=
  (s.1 ++ (deserializeMessage buffer).toList, s.2.receiveBody buffer)

/-- `Client::receiveMessages`, until the connection is lost. -/
def Client.receiveMessages (sp : Splitting) (stale : ℕ → UInt32) (c : Client)
    (stream : List UInt8) : List (BaseMessage UInt8) × Client :=
  match receiveLoop sp stale Client.handOn ([], c) stream with
  | ((msgs, c), .header) => (msgs, c.notifyServerDown.disconnect)
  -- only the read of a length calls `notifyServerDown`
  | ((msgs, c), .body) => (msgs, c.disconnect)

/-- The message `handleClient` broadcasts for the client `clientID`. -/
def stampSender (clientID : UInt8) (msg : BaseMessage UInt8) : BaseMessage UInt8 :=
  { msg with senderID := clientID }

/-- The loop of `Server::handleClient`: the messages it broadcasts. -/
def handleClient (sp : Splitting) (stale : ℕ → UInt32) (clientID : UInt8)
    (stream : List UInt8) : List (BaseMessage UInt8) :=
  (receiveLoop sp stale
    (fun out buffer => match deserializeMessage buffer with
      | none => out
      | some msg => out ++ [stampSender clientID msg])
    [] stream).1

/-- Every length that stands at the start of a frame comes in one piece. -/
def WholeHeaders (sp : Splitting) (msgs : List (BaseMessage UInt8)) : Prop :=
  ∀ msg post, (msg :: post) <:+ msgs → sp.size 4 (frames (msg :: post)).length = 4

theorem WholeHeaders.tail {sp : Splitting} {msg : BaseMessage UInt8}
    {msgs : List (BaseMessage UInt8)} (h : WholeHeaders sp (msg :: msgs)) :
    WholeHeaders sp msgs :=
  fun m post hsuffix => h m post (hsuffix.trans (List.suffix_cons msg msgs))

theorem length_frames_cons (msg : BaseMessage UInt8) (msgs : List (BaseMessage UInt8)) :
    4 ≤ (frames (msg :: msgs)).length := by
  rw [frames_cons, frame, List.length_append, List.length_append, length_frameHeader]
  omega

theorem wholeHeaders_whole (msgs : List (BaseMessage UInt8)) :
    WholeHeaders Splitting.whole msgs :=
  fun msg post _ => min_eq_left (length_frames_cons msg post)

/-! ## One frame, and all of them -/

/-- A `recv` that fills the length leaves nothing of what was there. -/
theorem fillHeader_of_length (stale : UInt32) {bytes : List UInt8} (h : bytes.length = 4) :
    fillHeader stale bytes = bytes := by
  have hnone : (leBytes 4 stale.toNat).drop bytes.length = [] :=
    List.drop_of_length_le (by rw [length_leBytes, h])
  rw [fillHeader, hnone, List.append_nil]

variable {σ : Type}

/-- At the end of the stream the loop stops at a length. -/
theorem receiveLoop_nil (sp : Splitting) (stale : ℕ → UInt32) (handle : σ → List UInt8 → σ)
    (s : σ) : receiveLoop sp stale handle s [] = (s, .header) := by
  have hzero : sp.size 4 ([] : List UInt8).length = 0 := Nat.le_zero.1 (sp.size_le_left _ _)
  rw [receiveLoop]
  exact if_pos hzero

/-- One turn of the loop: `k` bytes of length were read, and a body of the
size `n` they say. -/
theorem receiveLoop_of_readFull {sp : Splitting} {stale : ℕ → UInt32}
    {handle : σ → List UInt8 → σ} {left buffer rest : List UInt8} {k n : ℕ} (s : σ)
    (hk : sp.size 4 left.length = k) (hpos : k ≠ 0)
    (hsize : frameSize (fillHeader (stale left.length) (left.take k)) = n)
    (hread : readFull sp n [] (left.drop k) = some (buffer, rest)) :
    receiveLoop sp stale handle s left = receiveLoop sp stale handle (handle s buffer) rest := by
  subst hk hsize
  rw [receiveLoop]
  simp only [if_neg hpos]
  split
  next hnone =>
    rw [hread] at hnone
    cases hnone
  next buffer' rest' hsome =>
    rw [hread] at hsome
    obtain ⟨rfl, rfl⟩ := Prod.mk.inj (Option.some.inj hsome)
    rfl

/-- The last turn, in which the stream ends before the body does. -/
theorem receiveLoop_of_readFull_none {sp : Splitting} {stale : ℕ → UInt32}
    {handle : σ → List UInt8 → σ} {left : List UInt8} {k n : ℕ} (s : σ)
    (hk : sp.size 4 left.length = k) (hpos : k ≠ 0)
    (hsize : frameSize (fillHeader (stale left.length) (left.take k)) = n)
    (hread : readFull sp n [] (left.drop k) = none) :
    receiveLoop sp stale handle s left = (s, .body) := by
  subst hk hsize
  rw [receiveLoop]
  simp only [if_neg hpos]
  split
  next => rfl
  next buffer' rest' hsome =>
    rw [hread] at hsome
    cases hsome

/-- One turn of the loop on a frame whose length comes in one piece. -/
theorem receiveLoop_frame (sp : Splitting) (stale : ℕ → UInt32) (handle : σ → List UInt8 → σ)
    (s : σ) (msg : BaseMessage UInt8) (rest : List UInt8)
    (hlt : (serializeMessage msg).length < 2 ^ 32)
    (hhead : sp.size 4 (frame msg ++ rest).length = 4) :
    receiveLoop sp stale handle s (frame msg ++ rest) =
      receiveLoop sp stale handle (handle s (serializeMessage msg)) rest := by
  have hfirst : (frame msg ++ rest).take 4 = frameHeader (serializeMessage msg) := by
    rw [frame, List.append_assoc, List.take_left' (length_frameHeader _)]
  have hrest : (frame msg ++ rest).drop 4 = serializeMessage msg ++ rest := by
    rw [frame, List.append_assoc, List.drop_left' (length_frameHeader _)]
  have hsize : frameSize (fillHeader (stale (frame msg ++ rest).length)
      ((frame msg ++ rest).take 4)) = (serializeMessage msg).length := by
    rw [hfirst, fillHeader_of_length _ (length_frameHeader _), frameSize_frameHeader hlt]
  have hread : readFull sp (serializeMessage msg).length []
      ((frame msg ++ rest).drop 4) = some (serializeMessage msg, rest) := by
    rw [hrest, readFull_append]
  exact receiveLoop_of_readFull s hhead (by decide) hsize hread

/-- Frames whose length comes in one piece are handled one by one, however
their bodies are split. -/
theorem receiveLoop_frames (sp : Splitting) (stale : ℕ → UInt32) (handle : σ → List UInt8 → σ)
    (s : σ) (msgs : List (BaseMessage UInt8))
    (hlt : ∀ msg ∈ msgs, (serializeMessage msg).length < 2 ^ 32) (hhead : WholeHeaders sp msgs) :
    receiveLoop sp stale handle s (frames msgs) =
      ((msgs.map serializeMessage).foldl handle s, .header) := by
  induction msgs generalizing s with
  | nil => exact receiveLoop_nil sp stale handle s
  | cons msg msgs ih =>
      -- the first frame takes one turn, the others follow in the stream
      have hfirst := hhead msg msgs List.suffix_rfl
      rw [frames_cons] at hfirst
      rw [frames_cons, receiveLoop_frame sp stale handle s msg (frames msgs)
        (hlt msg List.mem_cons_self) hfirst]
      exact ih _ (fun m hm => hlt m (List.mem_cons_of_mem _ hm)) hhead.tail

/-! ## What the two ends hand on -/

theorem foldl_handOn (msgs msgs' : List (BaseMessage UInt8)) (c : Client) :
    (msgs.map serializeMessage).foldl Client.handOn (msgs', c) =
      (msgs' ++ msgs, Client.receiveAll (msgs.map serializeMessage) c) := by
  induction msgs generalizing msgs' c with
  | nil => simp
  | cons msg msgs ih =>
      rw [List.map_cons, List.foldl_cons, Client.handOn, ih]
      simp

theorem foldl_handleClient (clientID : UInt8) (msgs out : List (BaseMessage UInt8)) :
    (msgs.map serializeMessage).foldl
      (fun out buffer => match deserializeMessage buffer with
        | none => out
        | some msg => out ++ [stampSender clientID msg]) out =
      out ++ msgs.map (stampSender clientID) := by
  induction msgs generalizing out with
  | nil => simp
  | cons msg msgs ih =>
      rw [List.map_cons, List.foldl_cons, ih]
      simp

/-- However the stream is split, as long as every length comes in one piece: the
client hands on exactly the messages sent to it and loses nothing of them, and
the server broadcasts exactly those sent to it, with the sender replaced. -/
theorem receive_frames (sp : Splitting) (stale : ℕ → UInt32) (msgs : List (BaseMessage UInt8))
    (hlt : ∀ msg ∈ msgs, (serializeMessage msg).length < 2 ^ 32) (hhead : WholeHeaders sp msgs) :
    (∀ c : Client, c.receiveMessages sp stale (frames msgs) =
      (msgs, (Client.receiveAll (msgs.map serializeMessage) c).notifyServerDown.disconnect)) ∧
    ∀ clientID, handleClient sp stale clientID (frames msgs) =
      msgs.map (stampSender clientID) := by
  constructor
  · intro c
    rw [Client.receiveMessages, receiveLoop_frames sp stale _ _ msgs hlt hhead, foldl_handOn]
    rfl
  · intro clientID
    rw [handleClient, receiveLoop_frames sp stale _ _ msgs hlt hhead, foldl_handleClient]
    rfl

/-- An event and a snapshot, in a stream that `recv` gives four bytes at most. -/
theorem receive_frames_two :
    (Client.new.receiveMessages (.atMost 3) (fun _ => 7)
      (frames [⟨eventMessage, 9, [1, 2, 3, 4, 5]⟩, ⟨snapshotMessage, 9, []⟩])).1 =
      [⟨eventMessage, 9, [1, 2, 3, 4, 5]⟩, ⟨snapshotMessage, 9, []⟩] := by
  have hhead : WholeHeaders (.atMost 3)
      [⟨eventMessage, 9, [1, 2, 3, 4, 5]⟩, ⟨snapshotMessage, 9, []⟩] := by
    intro msg post _
    have hlen := length_frames_cons msg post
    exact min_eq_left (le_min (le_refl 4) hlen)
  exact congrArg Prod.fst ((receive_frames (.atMost 3) (fun _ => 7) _ (by decide) hhead).1
    Client.new)

/-- The server's client 1 sends a message with the sender 9; a client gets the
same message, with the length in two pieces. -/
theorem handed_on_differs :
    handleClient .whole (fun _ => 0) 1 (frames [⟨eventMessage, 9, [7]⟩]) ≠
      [⟨eventMessage, 9, [7]⟩] ∧
    (Client.new.receiveMessages (.atMost 1) (fun _ => 0) (frames [⟨eventMessage, 9, [7]⟩])).1 ≠
      [⟨eventMessage, 9, [7]⟩] := by
  constructor
  · rw [handleClient, receiveLoop_frames .whole _ _ _ _ (by decide) (wholeHeaders_whole _)]
    decide
  · -- two bytes of the length are read, as a length of 0, and the rest as the next length
    have hloop : receiveLoop (.atMost 1) (fun _ => 0) Client.handOn ([], Client.new)
        (frames [⟨eventMessage, 9, [7]⟩]) = (([], Client.new), .body) := by
      rw [receiveLoop_of_readFull _ (k := 2) rfl (by decide) (n := 0) (by decide)
          (readFull_append (.atMost 1) [] [0, 3, 2, 9, 7]),
        receiveLoop_of_readFull_none _ (k := 2) rfl (by decide) (n := 196608) (by decide)
          (readFull_eq_none _ _ _ _ (by decide))]
      rfl
    rw [Client.receiveMessages, hloop]
    decide

end HobbitSynchrony
