import HobbitSynchrony.Message

/-! # The client's end of a connection

`ServerClient/Client.h` and `Client.cpp`: the inbox of a client, the identity
and the roster it holds, and what a received message does to them.

* `Client`: the members a received message can change;
* `parseClientInfos`, `updateClientList`: the roster parser;
* `sortMessageByType`, `receiveBody`: the dispatch on the message type;
* `connectedClientsInfo_receiveBody`, `clientID_receiveBody`: which bodies
  change the roster and the identity, and to what.
-/

namespace HobbitSynchrony

/-- `ClientInfo`. The address is a string of characters, kept as bytes. -/
structure ClientInfo where
  clientID : UInt8
  ipAddress : List UInt8
  port : UInt16
deriving DecidableEq, Repr

/-- `Client`. A `std::map` is the function that looks a key up in it. -/
structure Client where
  isConnected : Bool
  clientID : UInt8
  connectedClientsInfo : UInt8 → Option ClientInfo
  textMessages : List (BaseMessage UInt8)
  eventMessages : List (BaseMessage UInt8)
  snapshotMessages : UInt8 → Option (BaseMessage UInt8)

namespace Client

/-- `Client()`; the id starts as `-1`. -/
def new : Client where
  isConnected := false
  clientID := 255
  connectedClientsInfo := fun _ => none
  textMessages := []
  eventMessages := []
  snapshotMessages := fun _ => none

/-! ## The event inbox -/

/-- `eventMessagesSize`; the size is returned as `uint32_t`. -/
def eventMessagesSize (c : Client) : UInt32 := UInt32.ofNat c.eventMessages.length

/-- `frontEventMessage`; `BaseMessage(-1, -1)` if there is none. -/
def frontEventMessage (c : Client) : BaseMessage UInt8 :=
  c.eventMessages.headD { messageType := 255, senderID := 255, message := [] }

/-- `popFrontEventMessage`. -/
def popFrontEventMessage (c : Client) : Client :=
  { c with eventMessages := c.eventMessages.tail }

/-! ## The roster -/

/-- The loop over the characters of the address, which breaks when the queue is
empty: the address, and what is left of the queue. -/
def takeAddress : ℕ → List UInt8 → List UInt8 × List UInt8
  | 0, temp => ([], temp)
  | _ + 1, [] => ([], [])
  | i + 1, c :: temp => (c :: (takeAddress i temp).1, (takeAddress i temp).2)

/-- One turn of the loop of `updateClientList`; a `break` of it is `none`. -/
def readClientInfo (temp : List UInt8) : Option (ClientInfo × List UInt8) :=
  match temp with
  | [] => none
  | [_] => none
  | clientID :: ipLen :: temp =>
    let ip := takeAddress ipLen.toNat temp
    match ip.2 with
    | b1 :: b2 :: temp =>
      some ({ clientID := clientID, ipAddress := ip.1,
              port := ntohs ((b1.toUInt16 <<< 8) ||| b2.toUInt16) }, temp)
    | _ => none

theorem takeAddress_eq (i : ℕ) (temp : List UInt8) :
    takeAddress i temp = (temp.take i, temp.drop i) := by
  induction i, temp using takeAddress.induct with
  | case1 temp => simp [takeAddress]
  | case2 i => simp [takeAddress]
  | case3 i c temp ih => simp [takeAddress, ih]

/-- The loop of `updateClientList`. Every turn takes at least four bytes, so the
length of the data is enough fuel. -/
def parseClientInfos : ℕ → List UInt8 → List ClientInfo
  | 0, _ => []
  | fuel + 1, temp =>
    match readClientInfo temp with
    | none => []
    | some (info, rest) => info :: parseClientInfos fuel rest

/-- The map with the entries of `clientInfos` put in, in order. -/
def insertClientInfos (clientInfos : List ClientInfo) : UInt8 → Option ClientInfo :=
  clientInfos.foldl (fun infos info => Function.update infos info.clientID (some info))
    fun _ => none

/-- The roster in the data of a client list message. -/
def rosterOfData (data : List UInt8) : UInt8 → Option ClientInfo :=
  insertClientInfos (parseClientInfos data.length data)

/-- `updateClientList`, with the queue of IDs its listeners are called with. -/
def updateClientList (data : List UInt8) (c : Client) : Client × List UInt8 :=
  let c := { c with connectedClientsInfo := rosterOfData data }
  (c, ((List.range 256).map UInt8.ofNat).filter fun id => (c.connectedClientsInfo id).isSome)

/-- `notifyServerDown`. -/
def notifyServerDown (c : Client) : Client :=
  (updateClientList [] { c with isConnected := false }).1

/-! ## Receiving -/

/-- `sortMessageByType`. -/
def sortMessageByType (msg : BaseMessage UInt8) (c : Client) : Client :=
  if msg.messageType = textMessage then { c with textMessages := c.textMessages ++ [msg] }
  else if msg.messageType = eventMessage then { c with eventMessages := c.eventMessages ++ [msg] }
  else if msg.messageType = snapshotMessage then
    { c with snapshotMessages := Function.update c.snapshotMessages msg.senderID (some msg) }
  -- the sender of the message becomes the own id, whoever sent it
  else if msg.messageType = clientIDMessage then { c with clientID := msg.senderID }
  else c

/-- What `receiveMessages` does with the body of a frame. -/
def receiveBody (buffer : List UInt8) (c : Client) : Client :=
  match deserializeMessage buffer with
  -- the null pointer: shorter than two bytes
  | none => c
  | some msg =>
    if msg.messageType = clientListMessage then (c.updateClientList msg.message).1
    else c.sortMessageByType msg

/-- A client that has received the bodies of `bodies`, in order. -/
def receiveAll (bodies : List (List UInt8)) (c : Client) : Client :=
  bodies.foldl (fun c buffer => c.receiveBody buffer) c

@[simp] theorem receiveAll_nil (c : Client) : receiveAll [] c = c := rfl

@[simp] theorem receiveAll_cons (buffer : List UInt8) (bodies : List (List UInt8)) (c : Client) :
    receiveAll (buffer :: bodies) c = receiveAll bodies (c.receiveBody buffer) := rfl

@[simp] theorem receiveAll_append (bodies bodies' : List (List UInt8)) (c : Client) :
    receiveAll (bodies ++ bodies') c = receiveAll bodies' (receiveAll bodies c) :=
  List.foldl_append

/-! ## What a message changes -/

theorem connectedClientsInfo_sortMessageByType (msg : BaseMessage UInt8) (c : Client) :
    (c.sortMessageByType msg).connectedClientsInfo = c.connectedClientsInfo := by
  unfold sortMessageByType
  repeat' split
  all_goals rfl

theorem clientID_sortMessageByType (msg : BaseMessage UInt8) (c : Client) :
    (c.sortMessageByType msg).clientID =
      if msg.messageType = clientIDMessage then msg.senderID else c.clientID := by
  unfold sortMessageByType
  -- the four types are different, so an ID message gets to the last branch
  by_cases hid : msg.messageType = clientIDMessage
  · simp [hid, clientIDMessage, textMessage, eventMessage, snapshotMessage]
  · rw [if_neg hid, if_neg hid]
    repeat' split
    all_goals rfl

/-- Only a client list message changes the roster. -/
theorem connectedClientsInfo_receiveBody (msg : BaseMessage UInt8) (c : Client) :
    (c.receiveBody (serializeMessage msg)).connectedClientsInfo =
      if msg.messageType = clientListMessage then rosterOfData msg.message
      else c.connectedClientsInfo := by
  unfold receiveBody
  rw [deserializeMessage_serializeMessage]
  dsimp only
  by_cases hlist : msg.messageType = clientListMessage
  · rw [if_pos hlist, if_pos hlist]
    rfl
  · rw [if_neg hlist, if_neg hlist, connectedClientsInfo_sortMessageByType]

/-- Only a client ID message changes the id. -/
theorem clientID_receiveBody (msg : BaseMessage UInt8) (c : Client) :
    (c.receiveBody (serializeMessage msg)).clientID =
      if msg.messageType = clientIDMessage then msg.senderID else c.clientID := by
  unfold receiveBody
  rw [deserializeMessage_serializeMessage]
  dsimp only
  by_cases hlist : msg.messageType = clientListMessage
  · rw [if_pos hlist, if_neg (by rw [hlist]; decide)]
    rfl
  · rw [if_neg hlist, clientID_sortMessageByType]

/-- Messages that are no client ID messages leave the id alone. -/
theorem clientID_receiveAll {bodies : List (List UInt8)} (c : Client)
    (h : ∀ buffer ∈ bodies, ∃ msg, serializeMessage msg = buffer ∧
      msg.messageType ≠ clientIDMessage) : (receiveAll bodies c).clientID = c.clientID := by
  induction bodies generalizing c with
  | nil => rfl
  | cons buffer bodies ih =>
      rcases h buffer List.mem_cons_self with ⟨msg, rfl, htype⟩
      rw [receiveAll_cons, ih _ fun b hb => h b (List.mem_cons_of_mem _ hb), clientID_receiveBody,
        if_neg htype]

/-- Messages that are no client list messages leave the roster alone. -/
theorem connectedClientsInfo_receiveAll {bodies : List (List UInt8)} (c : Client)
    (h : ∀ buffer ∈ bodies, ∃ msg, serializeMessage msg = buffer ∧
      msg.messageType ≠ clientListMessage) :
    (receiveAll bodies c).connectedClientsInfo = c.connectedClientsInfo := by
  induction bodies generalizing c with
  | nil => rfl
  | cons buffer bodies ih =>
      rcases h buffer List.mem_cons_self with ⟨msg, rfl, htype⟩
      rw [receiveAll_cons, ih _ fun b hb => h b (List.mem_cons_of_mem _ hb),
        connectedClientsInfo_receiveBody, if_neg htype]

end Client

end HobbitSynchrony
