import HobbitSynchrony.Lib.EntryStream
import HobbitSynchrony.ConnectedPlayers
import HobbitSynchrony.Server

/-! # The roster parser

`Client::updateClientList` takes a client list apart with a loop of its own: an
address that is announced longer than the data ends early, and the loop is left
at the first entry that is not whole.

* `updateClientListNotifying`: the client, and the calls of the listeners;
* `RosterEntry`, `rosterCode`: the grammar of an entry;
* `parseClientInfos_take`: a roster that is cut anywhere;
* `updateClientList_entries`: the roster and the calls of the listeners for any
  data.
-/

namespace HobbitSynchrony

variable {L : Type}

namespace Client

/-- `updateClientList`: the client it leaves, and the calls of the listeners. -/
def updateClientListNotifying (listeners : List L) (data : List UInt8) (c : Client) :
    Client × List (L × List UInt8) :=
  let r := c.updateClientList data
  (r.1, listeners.map fun listener => (listener, r.2))

end Client

/-! ## The grammar -/

/-- An entry of a roster as it is on the wire. The length byte is the length of
the address. -/
structure RosterEntry where
  clientID : UInt8
  ipAddress : List UInt8
  b1 : UInt8
  b2 : UInt8
  fits : ipAddress.length < 256

namespace RosterEntry

def bytes (e : RosterEntry) : List UInt8 :=
  e.clientID :: UInt8.ofNat e.ipAddress.length :: (e.ipAddress ++ [e.b1, e.b2])

/-- What the entry says of a client. -/
def info (e : RosterEntry) : ClientInfo where
  clientID := e.clientID
  ipAddress := e.ipAddress
  port := ntohs ((e.b1.toUInt16 <<< 8) ||| e.b2.toUInt16)

/-- Takes an entry off the data. -/
def read (data : List UInt8) : Option (RosterEntry × List UInt8) :=
  match data with
  | clientID :: ipLen :: temp =>
    match temp.drop ipLen.toNat with
    | b1 :: b2 :: rest =>
      some ({ clientID := clientID, ipAddress := temp.take ipLen.toNat, b1 := b1, b2 := b2
              fits := (List.length_take_le _ _).trans_lt ipLen.toNat_lt }, rest)
    | _ => none
  | _ => none

theorem read_bytes (e : RosterEntry) (rest : List UInt8) :
    read (e.bytes ++ rest) = some (e, rest) := by
  have hlen : (UInt8.ofNat e.ipAddress.length).toNat = e.ipAddress.length :=
    UInt8.toNat_ofNat_of_lt' e.fits
  simp only [read, bytes, List.cons_append, List.append_assoc, hlen, List.drop_left,
    List.take_left, List.nil_append]

theorem bytes_of_read {data rest : List UInt8} {e : RosterEntry}
    (h : read data = some (e, rest)) : data = e.bytes ++ rest := by
  unfold read at h
  split at h
  · next clientID ipLen temp =>
      split at h
      · next b1 b2 more hdrop =>
          cases h
          -- the address has the length that is announced
          have hlength := congrArg List.length hdrop
          rw [List.length_drop, List.length_cons, List.length_cons] at hlength
          have htake : (temp.take ipLen.toNat).length = ipLen.toNat :=
            List.length_take_of_le (by omega)
          have htemp : temp = temp.take ipLen.toNat ++ (b1 :: b2 :: rest) := by
            rw [← hdrop, List.take_append_drop]
          unfold bytes
          dsimp only
          rw [htake, UInt8.ofNat_toNat, List.cons_append, List.cons_append, List.append_assoc]
          exact congrArg (clientID :: ipLen :: ·) htemp
      · cases h
  · cases h

end RosterEntry

/-- A roster as a stream of entries. -/
def rosterCode : EntryCode RosterEntry UInt8 where
  write := RosterEntry.bytes
  read := RosterEntry.read
  write_ne_nil := fun _ => List.cons_ne_nil _ _
  read_write := RosterEntry.read_bytes
  write_of_read := RosterEntry.bytes_of_read

namespace Client

/-- A turn of the loop reads an entry. -/
theorem readClientInfo_eq (temp : List UInt8) :
    readClientInfo temp = (rosterCode.read temp).map fun p => (p.1.info, p.2) := by
  unfold readClientInfo rosterCode RosterEntry.read
  match temp with
  | [] => simp
  | [_] => simp
  | clientID :: ipLen :: temp =>
      simp only [takeAddress_eq]
      cases hdrop : temp.drop ipLen.toNat with
      | nil => simp
      | cons b1 more =>
          cases more with
          | nil => simp
          | cons b2 rest => simp [RosterEntry.info]

/-- The loop gives the entries that are split off, if it has a turn for each. -/
theorem parseClientInfos_of_split {data rest : List UInt8} {entries : List RosterEntry}
    (h : rosterCode.Split data entries rest) (fuel : ℕ) (hfuel : entries.length ≤ fuel) :
    parseClientInfos fuel data = entries.map RosterEntry.info := by
  induction entries generalizing data fuel with
  | nil =>
      have hdata : data = rest := h.eq
      have hread : rosterCode.read data = none :=
        (rosterCode.read_eq_none_iff data).2 (by rw [hdata]; exact h.cut)
      cases fuel with
      | zero => exact rfl
      | succ fuel =>
          rw [parseClientInfos, readClientInfo_eq, hread]
          exact rfl
  | cons e entries ih =>
      rw [List.length_cons] at hfuel
      obtain ⟨fuel, rfl⟩ : ∃ k, fuel = k + 1 := ⟨fuel - 1, by omega⟩
      have hdata : data = e.bytes ++ (rosterCode.writeAll entries ++ rest) := by
        rw [h.eq, EntryCode.writeAll_cons, List.append_assoc]
        exact rfl
      have hread : rosterCode.read data = some (e, rosterCode.writeAll entries ++ rest) := by
        rw [hdata]
        exact RosterEntry.read_bytes e _
      rw [parseClientInfos, readClientInfo_eq, hread]
      dsimp only [Option.map_some]
      rw [ih ⟨rfl, h.cut⟩ fuel (by omega), List.map_cons]

/-- Every entry has a byte. -/
theorem length_le_length_writeAll (entries : List RosterEntry) :
    entries.length ≤ (rosterCode.writeAll entries).length := by
  induction entries with
  | nil => simp
  | cons e entries ih =>
      have hpos := rosterCode.length_write_pos e
      rw [EntryCode.writeAll_cons, List.length_append, List.length_cons]
      omega

/-- The length of the data is enough. -/
theorem parseClientInfos_split {data rest : List UInt8} {entries : List RosterEntry}
    (h : rosterCode.Split data entries rest) :
    parseClientInfos data.length data = entries.map RosterEntry.info := by
  apply parseClientInfos_of_split h
  rw [h.eq, List.length_append]
  exact (length_le_length_writeAll entries).trans (Nat.le_add_right _ _)

/-! ## The map -/

/-- A map that is filled in order has the last entry of each ID. -/
theorem insertClientInfos_eq_find (infos : List ClientInfo) (clientID : UInt8) :
    insertClientInfos infos clientID =
      infos.reverse.find? fun info => info.clientID == clientID := by
  induction infos using List.reverseRecOn with
  | nil => exact rfl
  | append_singleton infos info ih =>
      unfold insertClientInfos at ih ⊢
      rw [List.foldl_append, List.foldl_cons, List.foldl_nil, List.reverse_append,
        List.reverse_singleton, List.singleton_append]
      by_cases hid : clientID = info.clientID
      · subst hid
        rw [Function.update_self, List.find?_cons_of_pos (by simp)]
      · have hne : (info.clientID == clientID) = false := by simpa using fun heq => hid heq.symm
        rw [Function.update_of_ne hid, ih, List.find?_cons, hne]

/-- A list without repeated IDs is found back in its map. -/
theorem insertClientInfos_eq_some_iff {infos : List ClientInfo}
    (h : (infos.map ClientInfo.clientID).Nodup) (info : ClientInfo) :
    insertClientInfos infos info.clientID = some info ↔ info ∈ infos := by
  rw [insertClientInfos_eq_find]
  constructor
  · intro hfind
    exact List.mem_reverse.1 (List.mem_of_find?_eq_some hfind)
  · intro hmem
    cases hfind : infos.reverse.find? fun i => i.clientID == info.clientID with
    | none =>
        rw [List.find?_eq_none] at hfind
        exact absurd (beq_self_eq_true info.clientID) (hfind info (List.mem_reverse.2 hmem))
    | some found =>
        have hid := List.find?_some hfind
        have hfound := List.mem_reverse.1 (List.mem_of_find?_eq_some hfind)
        rw [List.inj_on_of_nodup_map h hfound hmem (beq_iff_eq.1 hid)]

/-- The IDs are gone through from the lowest to the highest. -/
theorem pairwise_lt_clientIDs (p : UInt8 → Bool) :
    (((List.range 256).map UInt8.ofNat).filter p).Pairwise (· < ·) := by
  apply List.Pairwise.filter
  rw [List.pairwise_map]
  apply List.pairwise_lt_range.imp_of_mem
  intro i j hi hj hlt
  rw [List.mem_range] at hi hj
  rw [UInt8.lt_iff_toNat_lt, UInt8.toNat_ofNat_of_lt' hi, UInt8.toNat_ofNat_of_lt' hj]
  exact hlt

/-! ## What `updateClientList` makes of its data -/

/-- `updateClientList` takes the data for these entries, and nothing else: the
last entry of an ID is put into the roster, and every listener is called once,
with the IDs of the entries in ascending order. -/
structure TakesFor (c : Client) (listeners : List L) (data : List UInt8)
    (infos : List ClientInfo) : Prop where
  client : (c.updateClientListNotifying listeners data).1 =
    { c with connectedClientsInfo := fun clientID =>
        infos.reverse.find? fun info => info.clientID == clientID }
  calls : ∃ clientIDs : List UInt8, clientIDs.Pairwise (· < ·) ∧
    (∀ clientID, clientID ∈ clientIDs ↔ ∃ info ∈ infos, info.clientID = clientID) ∧
      (c.updateClientListNotifying listeners data).2 =
        listeners.map fun listener => (listener, clientIDs)

theorem takesFor_parseClientInfos (c : Client) (listeners : List L) (data : List UInt8) :
    c.TakesFor listeners data (parseClientInfos data.length data) := by
  have hmap : rosterOfData data = fun clientID =>
      (parseClientInfos data.length data).reverse.find? fun info => info.clientID == clientID :=
    funext (insertClientInfos_eq_find _)
  constructor
  · unfold updateClientListNotifying updateClientList
    dsimp only
    rw [hmap]
  · have hcalled : (c.updateClientList data).2 = ((List.range 256).map UInt8.ofNat).filter
        fun clientID => (rosterOfData data clientID).isSome := rfl
    refine ⟨(c.updateClientList data).2, ?_, ?_, rfl⟩
    · rw [hcalled]
      exact pairwise_lt_clientIDs _
    intro clientID
    have hall : clientID ∈ (List.range 256).map UInt8.ofNat :=
      List.mem_map.2 ⟨clientID.toNat, List.mem_range.2 clientID.toNat_lt, UInt8.ofNat_toNat⟩
    rw [hcalled, List.mem_filter, hmap, List.find?_isSome]
    constructor
    · rintro ⟨-, info, hmem, hid⟩
      exact ⟨info, List.mem_reverse.1 hmem, beq_iff_eq.1 hid⟩
    · rintro ⟨info, hmem, hid⟩
      exact ⟨hall, info, List.mem_reverse.2 hmem, beq_iff_eq.2 hid⟩

end Client

/-! ## Rosters that are written -/

/-- The bytes that the loop of `notifyClients` pushes for these clients. -/
def encodeRoster (infos : List ClientInfo) : List UInt8 := infos.flatMap clientListEntry

theorem clientListData_eq (clients : List ClientHandler) :
    clientListData clients = encodeRoster (clients.map ClientHandler.info) := by
  unfold clientListData encodeRoster
  rw [List.flatMap_map]

/-- The entry that is written for a client. -/
theorem exists_entry {info : ClientInfo} (h : info.ipAddress.length < 256) :
    ∃ e : RosterEntry, e.info = info ∧ e.bytes = clientListEntry info := by
  refine ⟨{ clientID := info.clientID, ipAddress := info.ipAddress
            b1 := ((htons info.port >>> 8) &&& 0xFF).toUInt8
            b2 := (htons info.port &&& 0xFF).toUInt8, fits := h }, ?_, ?_⟩
  · simp only [RosterEntry.info, port_bytes, ntohs_htons]
  · simp only [RosterEntry.bytes, clientListEntry]

theorem exists_entries {infos : List ClientInfo}
    (h : ∀ info ∈ infos, info.ipAddress.length < 256) :
    ∃ entries : List RosterEntry, entries.map RosterEntry.info = infos ∧
      entries.map RosterEntry.bytes = infos.map clientListEntry := by
  induction infos with
  | nil => exact ⟨[], rfl, rfl⟩
  | cons info infos ih =>
      rcases exists_entry (h info List.mem_cons_self) with ⟨e, hinfo, hbytes⟩
      rcases ih fun i hi => h i (List.mem_cons_of_mem info hi) with ⟨entries, hinfos, hall⟩
      refine ⟨e :: entries, ?_, ?_⟩
      · rw [List.map_cons, hinfo, hinfos]
      · rw [List.map_cons, List.map_cons, hbytes, hall]

namespace Client

/-- A roster that is cut after `n` bytes gives the clients whose entries are
whole before the cut. -/
theorem parseClientInfos_take {infos : List ClientInfo}
    (h : ∀ info ∈ infos, info.ipAddress.length < 256) (n : ℕ) :
    ∃ k ≤ infos.length, (encodeRoster (infos.take k)).length ≤ n ∧
      (∀ j ≤ infos.length, (encodeRoster (infos.take j)).length ≤ n → j ≤ k) ∧
        parseClientInfos ((encodeRoster infos).take n).length ((encodeRoster infos).take n) =
          infos.take k := by
  rcases exists_entries h with ⟨entries, rfl, hbytes⟩
  have hwritten (j : ℕ) : rosterCode.writeAll (entries.take j) =
      encodeRoster ((entries.map RosterEntry.info).take j) := by
    unfold EntryCode.writeAll encodeRoster rosterCode
    rw [List.flatMap_def, List.flatMap_def, List.map_take, hbytes, ← List.map_take]
  have hall : rosterCode.writeAll entries = encodeRoster (entries.map RosterEntry.info) := by
    have hlength := hwritten entries.length
    rwa [List.take_length, List.take_of_length_le (by rw [List.length_map])] at hlength
  rcases rosterCode.split_take entries n with ⟨k, rest, hwhole, hsplit⟩
  rw [← hall, parseClientInfos_split hsplit, List.map_take, List.length_map]
  refine ⟨k, hwhole.le, ?_, ?_, rfl⟩
  · rw [← hwritten]
    exact hwhole.whole
  · intro j hj hlength
    rw [← hwritten] at hlength
    exact hwhole.last j hj hlength

/-- A roster that is not cut gives all the clients. -/
theorem parseClientInfos_encodeRoster {infos : List ClientInfo}
    (h : ∀ info ∈ infos, info.ipAddress.length < 256) :
    parseClientInfos (encodeRoster infos).length (encodeRoster infos) = infos := by
  rcases parseClientInfos_take h (encodeRoster infos).length with ⟨k, hle, -, hlast, hread⟩
  rw [List.take_length] at hread
  have hk := hlast infos.length le_rfl (by rw [List.take_length])
  rw [hread, List.take_of_length_le hk]

/-- For a list of clients with different IDs, the roster has exactly them. -/
theorem TakesFor.mem_iff {c : Client} {listeners : List L} {data : List UInt8}
    {infos : List ClientInfo} (h : c.TakesFor listeners data infos)
    (hnodup : (infos.map ClientInfo.clientID).Nodup) (info : ClientInfo) :
    (c.updateClientListNotifying listeners data).1.connectedClientsInfo info.clientID = some info ↔
      info ∈ infos := by
  rw [h.client, ← insertClientInfos_eq_some_iff hnodup, insertClientInfos_eq_find]

/-- The roster parser takes exactly the entries that any data begins with; a
roster that is written and cut anywhere gives the clients whose entries are
whole. -/
theorem updateClientList_entries (listeners : List L) (c : Client) :
    (∀ data, (∃! split : List RosterEntry × List UInt8,
        rosterCode.Split data split.1 split.2) ∧
      ∀ entries rest, rosterCode.Split data entries rest →
        c.TakesFor listeners data (entries.map RosterEntry.info)) ∧
    (∀ clients, (rosterMessage clients).message =
      encodeRoster (clients.map ClientHandler.info)) ∧
    ∀ infos : List ClientInfo, (infos.map ClientInfo.clientID).Nodup →
      (∀ info ∈ infos, info.ipAddress.length ≤ 255) →
        c.TakesFor listeners (encodeRoster infos) infos ∧
        (∀ info, (c.updateClientListNotifying listeners
            (encodeRoster infos)).1.connectedClientsInfo info.clientID = some info ↔
              info ∈ infos) ∧
        ∀ n, ∃ k ≤ infos.length, (encodeRoster (infos.take k)).length ≤ n ∧
          (∀ j ≤ infos.length, (encodeRoster (infos.take j)).length ≤ n → j ≤ k) ∧
          c.TakesFor listeners ((encodeRoster infos).take n) (infos.take k) ∧
          ∀ info, (c.updateClientListNotifying listeners
            ((encodeRoster infos).take n)).1.connectedClientsInfo info.clientID = some info ↔
              info ∈ infos.take k := by
  constructor
  · intro data
    refine ⟨rosterCode.exists_unique_split data, ?_⟩
    intro entries rest hsplit
    rw [← parseClientInfos_split hsplit]
    exact takesFor_parseClientInfos c listeners data
  constructor
  · exact clientListData_eq
  · intro infos hnodup haddress
    have hfits : ∀ info ∈ infos, info.ipAddress.length < 256 :=
      fun info hinfo => Nat.lt_succ_of_le (haddress info hinfo)
    have hwhole := takesFor_parseClientInfos c listeners (encodeRoster infos)
    rw [parseClientInfos_encodeRoster hfits] at hwhole
    refine ⟨hwhole, hwhole.mem_iff hnodup, ?_⟩
    intro n
    rcases parseClientInfos_take hfits n with ⟨k, hle, hlength, hlast, hread⟩
    have hcut := takesFor_parseClientInfos c listeners ((encodeRoster infos).take n)
    rw [hread] at hcut
    have hsublist : (infos.take k).Sublist infos := List.take_sublist k infos
    exact ⟨k, hle, hlength, hlast, hcut, hcut.mem_iff (hnodup.sublist (hsublist.map _))⟩

/-- Two clients, of which the second is cut off before its port. -/
theorem updateClientList_cut_off :
    Client.new.TakesFor [()] ((encodeRoster [⟨1, [49], 7777⟩, ⟨2, [50, 51], 80⟩]).take 9)
      [⟨1, [49], 7777⟩] := by
  rcases ((updateClientList_entries [()] Client.new).2.2 [⟨1, [49], 7777⟩, ⟨2, [50, 51], 80⟩]
    (by decide) (by decide)).2.2 9 with ⟨k, hle, hlength, hlast, htakes, -⟩
  have hone := hlast 1 (by decide) (by decide)
  obtain rfl | rfl : k = 1 ∨ k = 2 := by
    have htwo : k ≤ 2 := hle
    omega
  · exact htakes
  · exact absurd hlength (by decide)

end Client

end HobbitSynchrony
