import Mathlib.Data.List.Induction
import HobbitSynchrony.Client

/-! # The server's messages

`ServerClient/Server.h` and `Server.cpp`: the handlers of the connected
clients, and the two messages the server writes itself, the client ID message
of `acceptClients` and the roster of `notifyClients`.

* `ClientHandler`, `clientListData`: the registered clients and their roster;
* `rosterOfData_clientListData`: a client that parses the roster holds exactly
  the registered clients, if their IDs are distinct.
-/

namespace HobbitSynchrony

/-- The text `inet_ntop` puts into `ipStr[INET_ADDRSTRLEN]`. -/
structure IpText where
  chars : List UInt8
  fits : chars.length < 16

/-- `127.0.0.1`. -/
def localhost : IpText := ⟨[49, 50, 55, 46, 48, 46, 48, 46, 49], by decide⟩

/-- `ClientHandler`. Sockets are numbered in the order they are accepted. -/
structure ClientHandler where
  socket : ℕ
  clientID : UInt8
  ipAddress : IpText
  port : UInt16

/-- What the others get to know about a client. -/
def ClientHandler.info (h : ClientHandler) : ClientInfo :=
  { clientID := h.clientID, ipAddress := h.ipAddress.chars, port := h.port }

/-! ## The messages -/

/-- The message `acceptClients` sends to a new client. -/
def idMessage (clientID : UInt8) : BaseMessage UInt8 :=
  { messageType := clientIDMessage, senderID := clientID, message := [] }

/-- What the loop of `notifyClients` pushes for one handler. -/
def clientListEntry (info : ClientInfo) : List UInt8 :=
  let netPort := htons info.port
  -- the bytes of the swapped port, the high one first
  info.clientID :: UInt8.ofNat info.ipAddress.length :: (info.ipAddress ++
    [((netPort >>> 8) &&& 0xFF).toUInt8, (netPort &&& 0xFF).toUInt8])

/-- The data of the roster message for the handlers `clients`. -/
def clientListData (clients : List ClientHandler) : List UInt8 :=
  clients.flatMap fun h => clientListEntry h.info

/-- The message `notifyClients` sends to everybody. -/
def rosterMessage (clients : List ClientHandler) : BaseMessage UInt8 :=
  { messageType := clientListMessage, senderID := 0, message := clientListData clients }

/-- What a client should know of the handlers `clients`: under each ID, the
client with that ID. -/
def rosterOf (clients : List ClientHandler) : UInt8 → Option ClientInfo :=
  fun clientID => (clients.find? fun h => h.clientID == clientID).map ClientHandler.info

/-! ## The roster round trip -/

/-- The two port bytes put together again. -/
theorem port_bytes (x : UInt16) :
    ((((x >>> 8) &&& 0xFF).toUInt8.toUInt16 <<< 8) ||| (x &&& 0xFF).toUInt8.toUInt16) = x := by
  have hx := x.toNat_lt
  have hmask (n : ℕ) : n &&& 255 = n % 256 := Nat.and_two_pow_sub_one_eq_mod n 8
  have hhigh : ((x.toNat / 256 % 256 % 256) <<< 8) % 65536 = (x.toNat / 256) <<< 8 := by
    rw [Nat.shiftLeft_eq, Nat.shiftLeft_eq]
    omega
  apply UInt16.toNat_inj.1
  simp only [UInt16.toNat_or, UInt16.toNat_shiftLeft, UInt8.toNat_toUInt16, UInt16.toNat_toUInt8,
    UInt16.toNat_and, UInt16.toNat_shiftRight, UInt16.reduceToNat, Nat.shiftRight_eq_div_pow, hmask]
  norm_num only
  rw [hhigh, ← Nat.shiftLeft_add_eq_or_of_lt (by omega), Nat.shiftLeft_eq]
  omega

@[simp] theorem length_clientListEntry (info : ClientInfo) :
    (clientListEntry info).length = info.ipAddress.length + 4 := by
  simp [clientListEntry]

/-- One entry is parsed back, and the parser goes on behind it. -/
theorem parseClientInfos_entry (fuel : ℕ) (info : ClientInfo) (rest : List UInt8)
    (h : info.ipAddress.length < 256) :
    Client.parseClientInfos (fuel + 1) (clientListEntry info ++ rest) =
      info :: Client.parseClientInfos fuel rest := by
  have hlen : (UInt8.ofNat info.ipAddress.length).toNat = info.ipAddress.length :=
    UInt8.toNat_ofNat_of_lt' h
  simp only [clientListEntry, List.cons_append, List.append_assoc, Client.parseClientInfos,
    Client.readClientInfo, Client.takeAddress_eq, hlen, List.drop_left, List.take_left,
    List.nil_append, port_bytes, ntohs_htons]

/-- The entries of a roster are parsed back, in order. -/
theorem parseClientInfos_clientListData (clients : List ClientHandler) (fuel : ℕ)
    (h : (clientListData clients).length ≤ fuel) :
    Client.parseClientInfos fuel (clientListData clients) = clients.map ClientHandler.info := by
  induction clients generalizing fuel with
  | nil => cases fuel <;> rfl
  | cons c clients ih =>
      -- an address has less than 16 characters, so its length fits into a byte
      have hfits : c.info.ipAddress.length < 256 := by
        have := c.ipAddress.fits
        simp only [ClientHandler.info]
        omega
      have hcons : clientListData (c :: clients) =
          clientListEntry c.info ++ clientListData clients := List.flatMap_cons
      rw [hcons, List.length_append, length_clientListEntry] at h
      obtain ⟨fuel, rfl⟩ : ∃ k, fuel = k + 1 := ⟨fuel - 1, by omega⟩
      rw [hcons, parseClientInfos_entry _ _ _ hfits, List.map_cons, ih fuel (by omega)]

/-- The map that is filled in order is the lookup in the list, for distinct IDs. -/
theorem insertClientInfos_eq_rosterOf (clients : List ClientHandler)
    (h : (clients.map ClientHandler.clientID).Nodup) :
    Client.insertClientInfos (clients.map ClientHandler.info) = rosterOf clients := by
  induction clients using List.reverseRecOn with
  | nil => rfl
  | append_singleton clients c ih =>
      rw [List.map_append, List.nodup_append] at h
      rcases h with ⟨hclients, -, hnew⟩
      have hinsert : Client.insertClientInfos ((clients ++ [c]).map ClientHandler.info) =
          Function.update (rosterOf clients) c.clientID (some c.info) := by
        rw [← ih hclients]
        simp [Client.insertClientInfos, ClientHandler.info]
      rw [hinsert]
      funext clientID
      by_cases hid : clientID = c.clientID
      · -- nobody before has the ID of the last client
        subst hid
        have hnone : clients.find? (fun h => h.clientID == c.clientID) = none := by
          rw [List.find?_eq_none]
          intro x hx heq
          exact hnew x.clientID (List.mem_map_of_mem hx) c.clientID (by simp) (by simpa using heq)
        simp [rosterOf, List.find?_append, hnone]
      · have hne : (c.clientID == clientID) = false := by simpa using fun heq => hid heq.symm
        rw [Function.update_of_ne hid]
        simp [rosterOf, List.find?_append, hne]

/-- A client that parses the roster of `clients` knows exactly `clients`. -/
theorem rosterOfData_clientListData (clients : List ClientHandler)
    (h : (clients.map ClientHandler.clientID).Nodup) :
    Client.rosterOfData (clientListData clients) = rosterOf clients := by
  rw [Client.rosterOfData, parseClientInfos_clientListData clients _ le_rfl,
    insertClientInfos_eq_rosterOf clients h]

end HobbitSynchrony
