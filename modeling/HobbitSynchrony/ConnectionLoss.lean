import Mathlib.Data.List.Induction
import HobbitSynchrony.FrameStream

/-! # Losing the connection

`Client::receiveMessages` leaves its loop when `recv` returns 0 or an error: at
a length, or inside a body. Only at a length does it call `notifyServerDown`,
which empties the roster and tells the listeners.

* `receiveNotifying`: the loop with the calls of the listeners as history;
* `Received`: a stream as whole frames and what is left of it when it is cut;
* `loss_reported_iff`: the loss is reported exactly if nothing is left, or if
  the listeners already know of an empty roster;
* `loss_in_body`: a stream cut inside a body.
-/

namespace HobbitSynchrony

open LittleEndian ByteStream

variable {L : Type}

namespace Client

/-- The calls of the listeners for the body of a frame: for a client list, each
with the IDs of the new roster. -/
def listenerCalls (listeners : List L) (buffer : List UInt8) (c : Client) :
    List (L × List UInt8) :=
  match deserializeMessage buffer with
  | none => []
  | some msg =>
    if msg.messageType = clientListMessage then
      listeners.map fun listener => (listener, (c.updateClientList msg.message).2)
    else []

/-- What `receiveMessages` does with a body. The first component is history:
the calls of the listeners. -/
def handNotifying (listeners : List L) (s : List (L × List UInt8) × Client)
    (buffer : List UInt8) : List (L × List UInt8) × Client :=
  (s.1 ++ s.2.listenerCalls listeners buffer, s.2.receiveBody buffer)

/-- `Client::receiveMessages` on a stream that ends where the connection is
lost, with the calls of the listeners. The client is not stopped, so the loop
goes on until then. -/
def receiveNotifying (sp : Splitting) (stale : ℕ → UInt32) (listeners : List L) (c : Client)
    (stream : List UInt8) : List (L × List UInt8) × Client :=
  match receiveLoop sp stale (handNotifying listeners) ([], c) stream with
  | ((calls, c), .header) =>
    let down := { c with isConnected := false }.updateClientList []
    (calls ++ listeners.map fun listener => (listener, down.2), down.1.disconnect)
  -- a body that does not come whole only breaks the loop
  | ((calls, c), .body) => (calls, c.disconnect)

/-- The loss is reported: the roster is empty, and the last call of every
listener was with the empty queue. -/
def LossReported [DecidableEq L] (sp : Splitting) (stale : ℕ → UInt32) (listeners : List L)
    (c : Client) (stream : List UInt8) : Prop :=
  (∀ clientID, (c.receiveNotifying sp stale listeners stream).2.connectedClientsInfo clientID =
      none) ∧
    ∀ listener ∈ listeners,
      (((c.receiveNotifying sp stale listeners stream).1.filter fun call =>
        call.1 = listener).map Prod.snd).getLast? = some []

end Client

/-! ## Where a stream is cut -/

/-- The length that the next `recv` of a length finds. -/
def announced (sp : Splitting) (stale : ℕ → UInt32) (left : List UInt8) : ℕ :=
  frameSize (fillHeader (stale left.length) (left.take (sp.size 4 left.length)))

/-- What is left after that `recv`. -/
def afterLength (sp : Splitting) (left : List UInt8) : List UInt8 :=
  left.drop (sp.size 4 left.length)

/-- `Received sp stale stream bodies rest`: the stream starts with whole frames
with these bodies, and the `rest` has no whole frame. -/
inductive Received (sp : Splitting) (stale : ℕ → UInt32) :
    List UInt8 → List (List UInt8) → List UInt8 → Prop
  | cut (rest : List UInt8)
      (short : rest = [] ∨ (afterLength sp rest).length < announced sp stale rest) :
      Received sp stale rest [] rest
  | frame (left : List UInt8) (bodies : List (List UInt8)) (rest : List UInt8)
      (nonempty : left ≠ [])
      (whole : announced sp stale left ≤ (afterLength sp left).length)
      (more : Received sp stale ((afterLength sp left).drop (announced sp stale left)) bodies
        rest) :
      Received sp stale left ((afterLength sp left).take (announced sp stale left) :: bodies) rest

/-- Every stream is cut somewhere. -/
theorem exists_received (sp : Splitting) (stale : ℕ → UInt32) (stream : List UInt8) :
    ∃ bodies rest, Received sp stale stream bodies rest := by
  induction hn : stream.length using Nat.strong_induction_on generalizing stream with
  | _ n ih =>
      by_cases hnil : stream = []
      · exact ⟨[], stream, .cut stream (.inl hnil)⟩
      · by_cases hwhole : announced sp stale stream ≤ (afterLength sp stream).length
        · -- a whole frame, and a shorter stream behind it
          have hlength : 0 < stream.length := List.length_pos_iff.2 hnil
          have hpos := sp.size_pos 4 stream.length (by omega) hlength
          have hshort : ((afterLength sp stream).drop (announced sp stale stream)).length < n := by
            unfold afterLength
            rw [List.length_drop, List.length_drop]
            omega
          rcases ih _ hshort _ rfl with ⟨bodies, rest, hmore⟩
          exact ⟨_, rest, .frame stream bodies rest hnil hwhole hmore⟩
        · exact ⟨[], stream, .cut stream (.inr (Nat.lt_of_not_le hwhole))⟩

/-- The loop handles the bodies of the whole frames, and stops at a length
exactly if nothing is left. -/
theorem receiveLoop_received {sp : Splitting} {stale : ℕ → UInt32} {σ : Type}
    (handle : σ → List UInt8 → σ) {stream : List UInt8} {bodies : List (List UInt8)}
    {rest : List UInt8} (h : Received sp stale stream bodies rest) (s : σ) :
    receiveLoop sp stale handle s stream =
      (bodies.foldl handle s, if rest = [] then .header else .body) := by
  induction h generalizing s with
  | cut rest short =>
      by_cases hnil : rest = []
      · subst hnil
        exact receiveLoop_nil sp stale handle s
      · have hlength : 0 < rest.length := List.length_pos_iff.2 hnil
        have hpos := sp.size_pos 4 rest.length (by omega) hlength
        have hcut := short.resolve_left hnil
        -- the length is read, and the body does not come whole
        have hread := readFull_eq_none sp (announced sp stale rest) [] (afterLength sp rest)
          (by simpa using hcut)
        rw [receiveLoop_of_readFull_none s rfl (by omega) rfl hread, if_neg hnil]
        exact rfl
  | frame left bodies rest nonempty whole more ih =>
      have hlength : 0 < left.length := List.length_pos_iff.2 nonempty
      have hpos := sp.size_pos 4 left.length (by omega) hlength
      have hread := readFull_eq sp (announced sp stale left) [] (afterLength sp left)
        (Nat.zero_le _) (by simpa using whole)
      rw [List.nil_append, List.length_nil, Nat.sub_zero] at hread
      rw [receiveLoop_of_readFull s rfl (by omega) rfl hread, ih, List.foldl_cons]

/-! ## The calls of the listeners -/

/-- The data of a client list, if the body is one. -/
def rosterData (buffer : List UInt8) : Option (List UInt8) :=
  match deserializeMessage buffer with
  | none => none
  | some msg => if msg.messageType = clientListMessage then some msg.message else none

/-- The data of the last client list among the bodies. -/
def lastRoster (bodies : List (List UInt8)) : Option (List UInt8) :=
  (bodies.filterMap rosterData).getLast?

namespace Client

/-- The IDs in a roster. -/
def rosterIDs (data : List UInt8) : List UInt8 :=
  ((List.range 256).map UInt8.ofNat).filter fun id => (rosterOfData data id).isSome

theorem updateClientList_snd (data : List UInt8) (c : Client) :
    (c.updateClientList data).2 = rosterIDs data := by
  simp [updateClientList, rosterIDs]

theorem listenerCalls_eq (listeners : List L) (buffer : List UInt8) (c : Client) :
    c.listenerCalls listeners buffer =
      (rosterData buffer).toList.flatMap fun data =>
        listeners.map fun listener => (listener, rosterIDs data) := by
  unfold listenerCalls rosterData
  cases deserializeMessage buffer with
  | none => simp
  | some msg =>
      dsimp only
      split
      · simp [updateClientList_snd]
      · simp

theorem receiveBody_roster (buffer : List UInt8) (c : Client) :
    (c.receiveBody buffer).connectedClientsInfo =
      match rosterData buffer with
      | none => c.connectedClientsInfo
      | some data => rosterOfData data := by
  unfold rosterData
  cases hmsg : deserializeMessage buffer with
  | none => simp [receiveBody, hmsg]
  | some msg =>
      rw [← serializeMessage_deserializeMessage hmsg, connectedClientsInfo_receiveBody]
      dsimp only
      split <;> simp

/-- The calls of the listeners for client lists with these data: one round for
each of them. -/
def rounds (listeners : List L) (datas : List (List UInt8)) : List (L × List UInt8) :=
  datas.flatMap fun data => listeners.map fun listener => (listener, rosterIDs data)

theorem rounds_append (listeners : List L) (datas : List (List UInt8)) (data : List UInt8) :
    rounds listeners (datas ++ [data]) =
      rounds listeners datas ++ listeners.map fun listener => (listener, rosterIDs data) := by
  unfold rounds
  rw [List.flatMap_append, List.flatMap_singleton]

/-- The last call of a listener is the one of the last round. -/
theorem last_call [DecidableEq L] {listeners : List L} {listener : L} (h : listener ∈ listeners)
    (datas : List (List UInt8)) :
    (((rounds listeners datas).filter fun call => call.1 = listener).map Prod.snd).getLast? =
      datas.getLast?.map rosterIDs := by
  induction datas using List.reverseRecOn with
  | nil => simp [rounds]
  | append_singleton datas data _ =>
      have hcall : (listener, rosterIDs data) ∈
          (listeners.map fun l => (l, rosterIDs data)).filter fun call => call.1 = listener := by
        simpa using h
      have hround : ∀ ids ∈ ((listeners.map fun l => (l, rosterIDs data)).filter fun call =>
          call.1 = listener).map Prod.snd, ids = rosterIDs data := by
        intro ids hids
        rcases List.mem_map.1 hids with ⟨call, hmem, rfl⟩
        rcases List.mem_map.1 (List.mem_filter.1 hmem).1 with ⟨l, -, rfl⟩
        exact rfl
      rw [rounds_append, List.filter_append, List.map_append, List.getLast?_append,
        List.getLast?_concat]
      -- the last round has a call of the listener
      cases hlast : (((listeners.map fun l => (l, rosterIDs data)).filter fun call =>
          call.1 = listener).map Prod.snd).getLast? with
      | none =>
          rw [List.getLast?_eq_none_iff, List.map_eq_nil_iff] at hlast
          rw [hlast] at hcall
          cases hcall
      | some ids => simp [hround ids (List.mem_of_getLast? hlast)]

/-- What the bodies leave behind: the last client list as the roster, and the
calls of the listeners. -/
theorem foldl_handNotifying (listeners : List L) (bodies : List (List UInt8)) (c : Client) :
    (bodies.foldl (handNotifying listeners) ([], c)).1 =
        rounds listeners (bodies.filterMap rosterData) ∧
      (bodies.foldl (handNotifying listeners) ([], c)).2.connectedClientsInfo =
        match lastRoster bodies with
        | none => c.connectedClientsInfo
        | some data => rosterOfData data := by
  induction bodies using List.reverseRecOn with
  | nil => simp [lastRoster, rounds]
  | append_singleton bodies buffer ih =>
      rw [List.foldl_append, List.foldl_cons, List.foldl_nil]
      constructor
      · rw [handNotifying, ih.1, listenerCalls_eq, List.filterMap_append]
        cases hdata : rosterData buffer <;> simp [hdata, rounds]
      · rw [handNotifying, receiveBody_roster, ih.2, lastRoster, lastRoster, List.filterMap_append]
        cases hdata : rosterData buffer <;> simp [hdata]

/-! ## When the loss is reported -/

/-- The listeners know of an empty roster already: the last client list that
came whole names nobody, or there was none, the roster was empty before and
there is no listener. -/
def AlreadyEmpty (listeners : List L) (c : Client) (bodies : List (List UInt8)) : Prop :=
  match lastRoster bodies with
  | some data => ∀ clientID, rosterOfData data clientID = none
  | none => listeners = [] ∧ ∀ clientID, c.connectedClientsInfo clientID = none

theorem rosterIDs_eq_nil {data : List UInt8} (h : ∀ clientID, rosterOfData data clientID = none) :
    rosterIDs data = [] := by
  unfold rosterIDs
  simp [h]

theorem rosterOfData_nil (clientID : UInt8) : rosterOfData [] clientID = none := by
  unfold rosterOfData parseClientInfos insertClientInfos
  rfl

/-- On a stream that is cut after these bodies. -/
theorem lossReported_received [DecidableEq L] {sp : Splitting} {stale : ℕ → UInt32}
    {stream rest : List UInt8} {bodies : List (List UInt8)}
    (h : Received sp stale stream bodies rest) (listeners : List L) (c : Client) :
    LossReported sp stale listeners c stream ↔ rest = [] ∨ AlreadyEmpty listeners c bodies := by
  rcases foldl_handNotifying listeners bodies c with ⟨hcalls, hroster⟩
  unfold LossReported receiveNotifying
  rw [receiveLoop_received _ h]
  by_cases hrest : rest = []
  · -- cut at a length: the listeners are called with the empty roster
    simp only [hrest, if_true, true_or, iff_true]
    constructor
    · intro clientID
      exact rosterOfData_nil clientID
    · intro listener hlistener
      have hlast := last_call hlistener (bodies.filterMap rosterData ++ [[]])
      rw [rounds_append, ← hcalls, List.getLast?_concat, Option.map_some,
        rosterIDs_eq_nil rosterOfData_nil] at hlast
      rw [updateClientList_snd, rosterIDs_eq_nil rosterOfData_nil]
      exact hlast
  · simp only [hrest, if_false, false_or]
    rw [hcalls, disconnect, hroster, AlreadyEmpty]
    cases hlast : lastRoster bodies with
    | none =>
        dsimp only
        constructor
        · rintro ⟨hempty, hall⟩
          refine ⟨?_, hempty⟩
          rw [List.eq_nil_iff_forall_not_mem]
          intro listener hlistener
          have hcall := hall listener hlistener
          rw [last_call hlistener, ← lastRoster, hlast] at hcall
          cases hcall
        · rintro ⟨rfl, hempty⟩
          exact ⟨hempty, by simp⟩
    | some data =>
        dsimp only
        constructor
        · exact fun hboth => hboth.1
        · intro hempty
          refine ⟨hempty, ?_⟩
          intro listener hlistener
          rw [last_call hlistener, ← lastRoster, hlast, Option.map_some, rosterIDs_eq_nil hempty]

/-- The loss of a connection is reported exactly if it is cut between two
frames, or if the listeners know of an empty roster already. -/
theorem loss_reported_iff [DecidableEq L] (sp : Splitting) (stale : ℕ → UInt32)
    (listeners : List L) (c : Client) (stream : List UInt8) :
    LossReported sp stale listeners c stream ↔
      ∃ bodies rest, Received sp stale stream bodies rest ∧
        (rest = [] ∨ AlreadyEmpty listeners c bodies) := by
  constructor
  · intro hreported
    rcases exists_received sp stale stream with ⟨bodies, rest, h⟩
    exact ⟨bodies, rest, h, (lossReported_received h listeners c).1 hreported⟩
  · rintro ⟨bodies, rest, h, hempty⟩
    exact (lossReported_received h listeners c).2 hempty

/-- A roster with client 1, and then a frame of which only one byte of five
comes: the listener is not called again. -/
theorem loss_in_body :
    ¬ LossReported .whole (fun _ => 0) [()] Client.new
      ([0, 0, 0, 6, 4, 0, 1, 0, 0, 0] ++ [0, 0, 0, 5, 2]) := by
  have h : Received .whole (fun _ => 0) ([0, 0, 0, 6, 4, 0, 1, 0, 0, 0] ++ [0, 0, 0, 5, 2])
      [[4, 0, 1, 0, 0, 0]] [0, 0, 0, 5, 2] :=
    .frame _ [] _ (by decide) (by decide) (.cut _ (.inr (by decide)))
  rw [lossReported_received h]
  rintro (hrest | hempty)
  · cases hrest
  · have hone := hempty 1
    revert hone
    decide

end Client

end HobbitSynchrony
