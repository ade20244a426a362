import HobbitSynchrony.ClientIDs
import HobbitSynchrony.Traffic

/-! # The relay

What becomes of the messages the server reads. A handler reads a message,
overwrites its sender and then takes the lock to broadcast it; others can
join and leave between the two.

* `carrying`: the relayed frames of a stream with a given sender byte;
* `RelayInv`: the invariant of the runs with distinct IDs;
* `relay_exact`: for two clients, what one got of the other;
* `read_before_leaving`: a run in which a message that was read while the
  receiver was registered does not reach it.
-/

namespace HobbitSynchrony

open Transition

/-- The client of socket `n` is among the handlers. -/
def Present (n : ℕ) (clients : List ClientHandler) : Prop :=
  n ∈ clients.map ClientHandler.socket

instance (n : ℕ) (clients : List ClientHandler) : Decidable (Present n clients) :=
  inferInstanceAs (Decidable (_ ∈ _))

/-- The relayed frames that carry the sender `clientID`. -/
def carrying (clientID : UInt8) (frames : List Frame) : List Frame :=
  frames.filter fun f => f.relayed && f.body[1]? == some clientID

/-- A step that leaves the registered handlers with distinct IDs. -/
def DistinctStep (s : Net) (a : Action) (s' : Net) : Prop := Step s a s' ∧ s'.DistinctIDs

/-- What `r` got of `n` while `n` was registered, and what `n` relayed while
`r` was registered. -/
def RelayExact (s : Net) (n r : ℕ) : Prop :=
  ((carrying (s.conn n).clientHandler.clientID (s.conn r).stream).filter fun f =>
      Present n f.present).map Frame.body =
    ((s.conn n).relays.filter fun e => Present r e.2).map fun e => serializeMessage e.1

/-- The messages the handler of `n` relayed, and the one it is relaying, are
the bodies of two bytes or more it has read, in order, with its ID as sender. -/
def RelaysRead (c : Connection) : Prop :=
  c.relays.map Prod.fst ++ c.handler.message =
    c.consumed.filterMap fun body => (deserializeMessage body).map c.stamp

/-- No relayed frame in the stream carries the client's own ID. -/
def NoEcho (c : Connection) : Prop := carrying c.clientHandler.clientID c.stream = []

/-! ## The relayed frames of a step -/

/-- The relayed frames a step puts on socket `r`. -/
def Net.relaysTo (s : Net) (a : Action) (r : ℕ) : List Frame :=
  match a with
  | .broadcast m =>
    match (s.conn m).handler with
    | .broadcasting msg => List.replicate
        ((s.clients.filter fun h => h.clientID != (s.conn m).clientHandler.clientID).countP
          fun h => h.socket == r) (relayFrame msg s.clients)
    | _ => []
  | _ => []

theorem relaysTo_eq_nil {s : Net} {a : Action} (r : ℕ) (h : ∀ m, a ≠ .broadcast m) :
    s.relaysTo a r = [] := by
  cases a with
  | broadcast m => exact absurd rfl (h m)
  | _ => rfl

theorem stream_put (c : Connection) (frames : List Frame) :
    (c.put frames).stream = c.stream ++ frames :=
  (List.append_assoc _ _ _).symm

/-- The relayed frames in a stream grow by those of the step. -/
theorem relayed_step {s s' : Net} {a : Action} (h : Step s a s') {r : ℕ} (hr : r < s.accepts) :
    (s'.conn r).stream.filter Frame.relayed =
      (s.conn r).stream.filter Frame.relayed ++ s.relaysTo a r := by
  by_cases ha : ∃ m, a = .broadcast m
  · rcases ha with ⟨m, rfl⟩
    cases h with
    | broadcast _ msg hpc =>
        have hto : s.relaysTo (.broadcast m) r = List.replicate
            ((s.clients.filter fun h => h.clientID != (s.conn m).clientHandler.clientID).countP
              fun h => h.socket == r) (relayFrame msg s.clients) := by
          simp only [Net.relaysTo, hpc]
        have hall : (s.relaysTo (.broadcast m) r).filter Frame.relayed =
            s.relaysTo (.broadcast m) r := by
          rw [hto, List.filter_replicate]
          rfl
        rw [← hall, ← List.filter_append, hto, ← stream_put, ← Net.conn_broadcastMessage]
        by_cases hrm : r = m
        · subst hrm
          rw [Net.conn_modify, Function.update_self]
          rfl
        · rw [Net.conn_modify, Function.update_of_ne hrm]
  · -- everything else the server sends is not relayed
    rw [relaysTo_eq_nil r fun m hm => ha ⟨m, hm⟩, List.append_nil]
    unfold Connection.stream
    cases h.traffic hr with
    | sent frames hsends hclient hflight hreceived =>
        have hnone : frames.filter Frame.relayed = [] := by
          rw [List.filter_eq_nil_iff]
          intro f hf
          cases hsends f hf with
          | id g _ hpc hgn => simp [idFrame]
          | roster g _ hmem hgn => simp [rosterFrame]
          | relay m msg g ham hpc hmem hgn hid => exact absurd ⟨m, ham⟩ ha
        rw [hflight, hreceived, ← List.append_assoc, List.filter_append, hnone, List.append_nil]
    | delivered f rest hf hclient hflight hreceived =>
        rw [hflight, hreceived, hf, List.append_assoc, List.singleton_append]
    | lost hclient hflight hreceived => rw [hflight, hreceived]

/-- With distinct IDs a broadcast of `m` puts one frame on every other
registered socket. -/
theorem relaysTo_broadcast {s : Net} (hs : s.WellFormed) (hr : s.Registered) (hd : s.DistinctIDs)
    {m r : ℕ} {msg : BaseMessage UInt8} (hpc : (s.conn m).handler = .broadcasting msg) :
    s.relaysTo (.broadcast m) r =
      if r ≠ m ∧ Present r s.clients then [relayFrame msg s.clients] else [] := by
  have hmem : (s.conn m).clientHandler ∈ s.clients := hr.handler m (by rw [hpc]; trivial)
  have hlt : m < s.accepts := hs.lt_accepts (by rw [hpc]; simp)
  have hnodup : ((s.clients.filter fun h => h.socket != m).map ClientHandler.socket).Nodup :=
    hs.sockets.sublist (List.filter_sublist.map _)
  -- every registered socket is there once, so there is one copy at most
  have hcount : (s.clients.filter fun h => h.socket != m).countP (fun h => h.socket == r) =
      ((s.clients.filter fun h => h.socket != m).map ClientHandler.socket).count r := by
    rw [List.count, List.countP_map]
    rfl
  have hpresent : r ∈ (s.clients.filter fun h => h.socket != m).map ClientHandler.socket ↔
      r ≠ m ∧ Present r s.clients := by
    unfold Present
    simp only [List.mem_map, List.mem_filter, bne_iff_ne, ne_eq]
    constructor
    · rintro ⟨h, ⟨hh, hne⟩, rfl⟩
      exact ⟨hne, h, hh, rfl⟩
    · rintro ⟨hne, h, hh, rfl⟩
      exact ⟨h, ⟨hh, hne⟩, rfl⟩
  simp only [Net.relaysTo, hpc]
  rw [Net.filter_clientID_eq hs hd hlt hmem, hcount, hnodup.count]
  by_cases hp : r ≠ m ∧ Present r s.clients
  · rw [if_pos (hpresent.2 hp), if_pos hp]
    rfl
  · rw [if_neg fun h => hp (hpresent.1 h), if_neg hp]
    rfl

/-! ## The invariant -/

/-- The invariant of the runs with distinct IDs. -/
structure RelayInv (s : Net) : Prop where
  wellFormed : s.WellFormed
  registered : s.Registered
  distinct : s.DistinctIDs
  frames : ∀ r < s.accepts, ∀ f ∈ (s.conn r).stream.filter Frame.relayed,
    ∀ n, Present n f.present → n < s.accepts
  relays : ∀ n < s.accepts, ∀ e ∈ (s.conn n).relays, ∀ r, Present r e.2 → r < s.accepts
  read : ∀ n < s.accepts, RelaysRead (s.conn n)
  exact : ∀ n < s.accepts, ∀ r < s.accepts, n ≠ r → RelayExact s n r
  noEcho : ∀ r < s.accepts, NoEcho (s.conn r)

theorem relayInv_start : RelayInv Net.start where
  wellFormed := Net.wellFormed_start
  registered := Net.registered_start
  distinct := List.nodup_nil
  frames := fun r hr => absurd hr (Nat.not_lt_zero r)
  relays := fun n hn => absurd hn (Nat.not_lt_zero n)
  read := fun n hn => absurd hn (Nat.not_lt_zero n)
  exact := fun n hn => absurd hn (Nat.not_lt_zero n)
  noEcho := fun r hr => absurd hr (Nat.not_lt_zero r)

/-- Who is present is registered, so its socket has been accepted. -/
theorem present_lt {s : Net} (hs : s.WellFormed) {n : ℕ} (h : Present n s.clients) :
    n < s.accepts := by
  rcases List.mem_map.1 h with ⟨g, hg, rfl⟩
  exact (hs.registered g hg).1

/-- A thread relays messages that carry its own ID. -/
theorem senderID_of_broadcasting {s : Net} (hs : RelayInv s) {m : ℕ} {msg : BaseMessage UInt8}
    (hpc : (s.conn m).handler = .broadcasting msg) :
    msg.senderID = (s.conn m).clientHandler.clientID := by
  have hread := hs.read m (hs.wellFormed.lt_accepts (by rw [hpc]; simp))
  unfold RelaysRead at hread
  have hmem : msg ∈ (s.conn m).relays.map Prod.fst ++ (s.conn m).handler.message := by
    rw [hpc]
    exact List.mem_append_right _ (List.mem_singleton.2 rfl)
  rw [hread] at hmem
  rcases List.mem_filterMap.1 hmem with ⟨body, -, hbody⟩
  rcases Option.map_eq_some_iff.1 hbody with ⟨m', -, rfl⟩
  rfl

theorem carrying_eq (clientID : UInt8) (frames : List Frame) :
    carrying clientID frames =
      (frames.filter Frame.relayed).filter fun f => f.body[1]? == some clientID := by
  rw [carrying, List.filter_filter]
  congr 1
  funext f
  exact Bool.and_comm _ _

theorem mem_relaysTo {s : Net} {a : Action} {r : ℕ} {f : Frame} (h : f ∈ s.relaysTo a r) :
    ∃ m msg, a = .broadcast m ∧ (s.conn m).handler = .broadcasting msg ∧
      f = relayFrame msg s.clients := by
  unfold Net.relaysTo at h
  split at h
  next m =>
    split at h
    next msg hpc => exact ⟨m, msg, rfl, hpc, List.eq_of_mem_replicate h⟩
    next => exact absurd h List.not_mem_nil
  next => exact absurd h List.not_mem_nil

/-- The relayed frames after a step name sockets accepted before it. -/
theorem frames_step {s s' : Net} {a : Action} (hs : RelayInv s) (h : Step s a s') {r : ℕ}
    (hr : r < s.accepts) {f : Frame} (hf : f ∈ (s'.conn r).stream.filter Frame.relayed) {n : ℕ}
    (hn : Present n f.present) : n < s.accepts := by
  rw [relayed_step h hr] at hf
  rcases List.mem_append.1 hf with hf | hf
  · exact hs.frames r hr f hf n hn
  · rcases mem_relaysTo hf with ⟨m, msg, -, -, rfl⟩
    exact present_lt hs.wellFormed hn

theorem relays_step {s s' : Net} {a : Action} (hs : RelayInv s) (h : Step s a s') {n : ℕ}
    (hn : n < s.accepts) {e : BaseMessage UInt8 × List ClientHandler}
    (he : e ∈ (s'.conn n).relays) {r : ℕ} (hr : Present r e.2) : r < s.accepts := by
  cases h.thread hs.wellFormed hn with
  | idle ha hmessage hconsumed hrelays =>
      exact hs.relays n hn e (hrelays ▸ he) r hr
  | skipped body ha hmsg hmessage hconsumed hrelays =>
      exact hs.relays n hn e (hrelays ▸ he) r hr
  | took body msg ha hmsg hbefore hmessage hconsumed hrelays =>
      exact hs.relays n hn e (hrelays ▸ he) r hr
  | relayed msg ha hpc hmessage hconsumed hrelays =>
      rw [hrelays] at he
      rcases List.mem_append.1 he with he | he
      · exact hs.relays n hn e he r hr
      · obtain rfl := List.mem_singleton.1 he
        exact present_lt hs.wellFormed hr

theorem read_step {s s' : Net} {a : Action} (hs : RelayInv s) (h : Step s a s') {n : ℕ}
    (hn : n < s.accepts) : RelaysRead (s'.conn n) := by
  have hread := hs.read n hn
  have hkeep := h.clientHandler hn
  have hstamp : (s'.conn n).stamp = (s.conn n).stamp := by
    funext msg
    rw [Connection.stamp, Connection.stamp, hkeep]
  unfold RelaysRead at hread ⊢
  rw [hstamp]
  cases h.thread hs.wellFormed hn with
  | idle ha hmessage hconsumed hrelays => rw [hmessage, hconsumed, hrelays, hread]
  | skipped body ha hmsg hmessage hconsumed hrelays =>
      rw [hmessage, hconsumed, hrelays, hread, List.filterMap_append]
      simp [hmsg]
  -- the thread was not relaying; now it is, with what it has just read
  | took body msg ha hmsg hbefore hmessage hconsumed hrelays =>
      rw [hbefore, List.append_nil] at hread
      rw [hmessage, hconsumed, hrelays, hread, List.filterMap_append]
      simp [hmsg]
  | relayed msg ha hpc hmessage hconsumed hrelays =>
      rw [hpc] at hread
      rw [hmessage, hconsumed, hrelays, ← hread]
      simp [HandlerPoint.message]

/-- Who is present is the handler of its socket. -/
theorem clientHandler_mem_of_present {s : Net} (hs : s.WellFormed) {n : ℕ}
    (h : Present n s.clients) : (s.conn n).clientHandler ∈ s.clients := by
  rcases List.mem_map.1 h with ⟨g, hg, rfl⟩
  rw [(hs.registered g hg).2]
  exact hg

/-- Two sockets with registered handlers of one ID are one. -/
theorem eq_of_clientID_eq {s : Net} (hs : RelayInv s) {n m : ℕ} (hn : n < s.accepts)
    (hm : m < s.accepts) (hmem : (s.conn n).clientHandler ∈ s.clients)
    (hmem' : (s.conn m).clientHandler ∈ s.clients)
    (hid : (s.conn n).clientHandler.clientID = (s.conn m).clientHandler.clientID) : n = m := by
  have heq := hs.distinct.eq hmem hmem' hid
  rw [← hs.wellFormed.socket n hn, heq, hs.wellFormed.socket m hm]

theorem sender_relayFrame (msg : BaseMessage UInt8) (present : List ClientHandler) :
    (relayFrame msg present).body[1]? = some msg.senderID := rfl

/-- The relayed frames of another client's step do not pass for frames of `n`. -/
theorem filter_relaysTo_other {s : Net} {a : Action} (hs : RelayInv s) {n : ℕ}
    (hn : n < s.accepts) (ha : a ≠ .broadcast n) (r : ℕ) :
    ((s.relaysTo a r).filter fun f => f.body[1]? == some (s.conn n).clientHandler.clientID).filter
      (fun f => Present n f.present) = [] := by
  rw [List.filter_eq_nil_iff]
  intro f hf hpresent
  rcases List.mem_filter.1 hf with ⟨hmem, hid⟩
  rcases mem_relaysTo hmem with ⟨m, msg, rfl, hpc, rfl⟩
  have hsender : (s.conn m).clientHandler.clientID = (s.conn n).clientHandler.clientID := by
    rw [← senderID_of_broadcasting hs hpc]
    simpa [sender_relayFrame] using hid
  have hm : (s.conn m).clientHandler ∈ s.clients :=
    hs.registered.handler m (by rw [hpc]; trivial)
  have hn' : (s.conn n).clientHandler ∈ s.clients :=
    clientHandler_mem_of_present hs.wellFormed (of_decide_eq_true hpresent)
  have heq := eq_of_clientID_eq hs (hs.wellFormed.lt_accepts (by rw [hpc]; simp)) hn hm hn' hsender
  exact ha (by rw [heq])

theorem exact_step {s s' : Net} {a : Action} (hs : RelayInv s) (h : Step s a s') {n r : ℕ}
    (hn : n < s.accepts) (hr : r < s.accepts) (hne : n ≠ r) : RelayExact s' n r := by
  have hexact := hs.exact n hn r hr hne
  unfold RelayExact at hexact ⊢
  rw [carrying_eq] at hexact ⊢
  rw [h.clientHandler hn, relayed_step h hr, List.filter_append, List.filter_append,
    List.map_append, hexact]
  have hother := fun ha => filter_relaysTo_other (a := a) hs hn ha r
  cases h.thread hs.wellFormed hn with
  -- threads that relay nothing add nothing on either side
  | idle ha hmessage hconsumed hrelays => rw [hother ha, hrelays, List.map_nil, List.append_nil]
  | skipped body ha hmsg hmessage hconsumed hrelays =>
      rw [hother ha, hrelays, List.map_nil, List.append_nil]
  | took body msg ha hmsg hbefore hmessage hconsumed hrelays =>
      rw [hother ha, hrelays, List.map_nil, List.append_nil]
  | relayed msg ha hpc hmessage hconsumed hrelays =>
      -- the sender is registered, and the frame carries its ID
      have hmem : (s.conn n).clientHandler ∈ s.clients :=
        hs.registered.handler n (by rw [hpc]; trivial)
      have hpresent : Present n s.clients :=
        List.mem_map.2 ⟨_, hmem, hs.wellFormed.socket n hn⟩
      have hsender := senderID_of_broadcasting hs hpc
      subst ha
      rw [hrelays, List.filter_append, List.map_append,
        relaysTo_broadcast hs.wellFormed hs.registered hs.distinct hpc]
      congr 1
      by_cases hto : Present r s.clients
      · have hcarries : ([relayFrame msg s.clients].filter fun f =>
            f.body[1]? == some (s.conn n).clientHandler.clientID) = [relayFrame msg s.clients] := by
          refine List.filter_cons_of_pos ?_
          rw [sender_relayFrame, hsender]
          exact beq_self_eq_true _
        have hthere : ([relayFrame msg s.clients].filter fun f => Present n f.present) =
            [relayFrame msg s.clients] :=
          List.filter_cons_of_pos (decide_eq_true hpresent)
        have hrelayed : ([(msg, s.clients)].filter fun e => Present r e.2) =
            [(msg, s.clients)] :=
          List.filter_cons_of_pos (decide_eq_true hto)
        rw [if_pos ⟨hne.symm, hto⟩, hcarries, hthere, hrelayed]
        rfl
      · have hrelayed : ([(msg, s.clients)].filter fun e => Present r e.2) = [] :=
          List.filter_cons_of_neg fun hp => hto (of_decide_eq_true hp)
        rw [if_neg fun hc => hto hc.2, hrelayed]
        rfl

theorem noEcho_step {s s' : Net} {a : Action} (hs : RelayInv s) (h : Step s a s') {r : ℕ}
    (hr : r < s.accepts) : NoEcho (s'.conn r) := by
  have hold := hs.noEcho r hr
  unfold NoEcho at hold ⊢
  rw [carrying_eq] at hold ⊢
  rw [h.clientHandler hr, relayed_step h hr, List.filter_append, hold, List.nil_append,
    List.filter_eq_nil_iff]
  intro f hf hid
  rcases mem_relaysTo hf with ⟨m, msg, rfl, hpc, rfl⟩
  -- the frame went to another socket than its sender's, and the two IDs differ
  rw [relaysTo_broadcast hs.wellFormed hs.registered hs.distinct hpc] at hf
  split at hf
  next hto =>
    have hsender : (s.conn r).clientHandler.clientID = (s.conn m).clientHandler.clientID := by
      rw [← senderID_of_broadcasting hs hpc]
      exact (Option.some.inj (beq_iff_eq.1 hid)).symm
    exact hto.1 (eq_of_clientID_eq hs hr (hs.wellFormed.lt_accepts (by rw [hpc]; simp))
      (clientHandler_mem_of_present hs.wellFormed hto.2)
      (hs.registered.handler m (by rw [hpc]; trivial)) hsender)
  next => exact absurd hf List.not_mem_nil

/-- A new receiver has got nothing, and nothing was relayed while it was there;
the same the other way round for a new sender. -/
theorem exact_opened {s s' : Net} {a : Action} (hs : RelayInv s) (h : Step s a s') {n r : ℕ}
    (hn : n < s'.accepts) (hr : r < s'.accepts) (hne : n ≠ r) : RelayExact s' n r := by
  rcases h.open_cases hn with hn' | ⟨hn', g, prev, hnew, -⟩
  · rcases h.open_cases hr with hr' | ⟨hr', g, prev, hnew, -⟩
    · exact exact_step hs h hn' hr' hne
    · -- a new receiver: whoever was present before had another socket
      have hnone : ((s'.conn n).relays.filter fun e => Present r e.2) = [] := by
        rw [List.filter_eq_nil_iff]
        intro e he hpresent
        exact Nat.ne_of_lt (relays_step hs h hn' he (of_decide_eq_true hpresent)) hr'
      rw [RelayExact, hnone, hnew]
      rfl
  · rcases h.open_cases hr with hr' | ⟨hr', -⟩
    · -- a new sender: the frames name sockets accepted before
      have hnone : ((carrying (s'.conn n).clientHandler.clientID (s'.conn r).stream).filter
          fun f => Present n f.present) = [] := by
        rw [List.filter_eq_nil_iff]
        intro f hf hpresent
        rw [carrying_eq] at hf
        exact Nat.ne_of_lt (frames_step hs h hr' (List.mem_of_mem_filter hf)
          (of_decide_eq_true hpresent)) hn'
      rw [RelayExact, hnone, hnew]
      rfl
    · exact absurd (hn'.trans hr'.symm) hne

theorem relayInv_step {s s' : Net} {a : Action} (hs : RelayInv s) (h : DistinctStep s a s') :
    RelayInv s' where
  wellFormed := hs.wellFormed.step h.1
  registered := hs.registered.step hs.wellFormed hs.distinct h.1
  distinct := h.2
  frames := by
    intro r hr f hf n hn
    rcases h.1.open_cases hr with hr' | ⟨-, g, prev, hnew, -⟩
    · exact (frames_step hs h.1 hr' hf hn).trans_le h.1.accepts_le
    · rw [hnew] at hf
      exact absurd hf List.not_mem_nil
  relays := by
    intro n hn e he r hr
    rcases h.1.open_cases hn with hn' | ⟨-, g, prev, hnew, -⟩
    · exact (relays_step hs h.1 hn' he hr).trans_le h.1.accepts_le
    · rw [hnew] at he
      exact absurd he List.not_mem_nil
  read := by
    intro n hn
    rcases h.1.open_cases hn with hn' | ⟨-, g, prev, hnew, -⟩
    · exact read_step hs h.1 hn'
    · rw [hnew]
      rfl
  exact := fun _ hn _ hr hne => exact_opened hs h.1 hn hr hne
  noEcho := by
    intro r hr
    rcases h.1.open_cases hr with hr' | ⟨-, g, prev, hnew, -⟩
    · exact noEcho_step hs h.1 hr'
    · rw [hnew]
      rfl

/-! ## Whole runs -/

/-- In a run with distinct IDs: the relayed frames with `n`'s ID that `r` got
while `n` was registered are the messages `n`'s handler relayed while `r` was
registered, each once and in order; these are the messages it has read, with
only the sender changed; and `r` gets no relayed frame with its own ID. -/
theorem relay_exact {as : List Action} {s : Net} (hrun : Run DistinctStep Net.start as s)
    (n r : ℕ) (hn : n < s.accepts) (hr : r < s.accepts) (hne : n ≠ r) :
    RelayExact s n r ∧ RelaysRead (s.conn n) ∧ (s.conn n).consumed <+: (s.conn n).sent ∧
      NoEcho (s.conn r) := by
  have hinv : RelayInv s :=
    hrun.invariant (fun _ _ _ h hs => relayInv_step hs h) relayInv_start
  exact ⟨hinv.exact n hn r hr hne, hinv.read n hn, List.prefix_append _ _, hinv.noEcho r hr⟩

/-- A run with fewer than 256 accepts has distinct IDs all along. -/
theorem distinct_of_lt {as : List Action} {s : Net} (h : Run Step Net.start as s)
    (hlt : s.accepts < 256) : Run DistinctStep Net.start as s ∧ IDsUnique s := by
  induction h with
  | nil => exact ⟨Run.nil, idsUnique_start⟩
  | snoc hrun hs ih =>
      rcases ih (hs.accepts_le.trans_lt hlt) with ⟨hdistinct, hids⟩
      have hids' := idsUnique_step hids hs (freshID_of_lt hids.wellFormed hs hlt)
      exact ⟨Run.snoc hdistinct ⟨hs, hids'.distinct⟩, hids'⟩

/-- Three clients join; the first sends two messages, and one that is too short
to be a message. -/
def relayRun : List Action :=
  joins 3 ++ [.clientSend 0 [2, 9, 7], .read 0, .broadcast 0, .clientSend 0 [2], .read 0,
    .clientSend 0 [3, 9], .read 0, .broadcast 0]

theorem relay_exact_three : ∃ s, Run Step Net.start relayRun s ∧
    (carrying 1 (s.conn 2).stream).map Frame.body = [[2, 1, 7], [3, 1]] ∧
    RelayExact s 0 2 ∧ RelaysRead (s.conn 0) ∧ NoEcho (s.conn 2) := by
  have hrun : Run Step Net.start relayRun _ := Net.run_of_isSome (by decide)
  rcases relay_exact (distinct_of_lt hrun (by decide)).1 0 2 (by decide) (by decide)
    (by decide) with ⟨hexact, hread, -, hecho⟩
  exact ⟨_, hrun, by decide, hexact, hread, hecho⟩

/-- The second client leaves between the reading of a message and its
broadcast: the message was read while it was registered, and it gets nothing. -/
theorem read_before_leaving : ∃ s, Run DistinctStep Net.start
    (joins 2 ++ [.clientSend 0 [2, 0, 7], .read 0, .hangup 1, .remove 1, .broadcast 0]) s ∧
    (carrying (s.conn 0).clientHandler.clientID (s.conn 1).stream).map Frame.body ≠
      ((s.conn 0).reads.filter fun e => Present 1 e.2).map fun e => serializeMessage e.1 := by
  have hrun : Run Step Net.start
      (joins 2 ++ [.clientSend 0 [2, 0, 7], .read 0, .hangup 1, .remove 1, .broadcast 0]) _ :=
    Net.run_of_isSome (by decide)
  exact ⟨_, (distinct_of_lt hrun (by decide)).1, by decide⟩

end HobbitSynchrony
